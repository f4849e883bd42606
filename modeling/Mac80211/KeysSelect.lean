import Mac80211.KeysLive

namespace Mac80211.Keys
open Ieee80211
open Function (update update_of_ne update_self)

structure TxData where
  sdata : Nat
  sta : Option Nat
  staMfp : Bool
  dontEncrypt : Bool
  frame : Mpdu

def TxData.frameControl (tx : TxData) : UInt16 := tx.frame.hdr.frameControl
def TxData.multicast (tx : TxData) : Bool := isMulticastEtherAddr tx.frame.hdr.addr1

def TxData.useMfp (tx : TxData) : Bool := isMgmt tx.frameControl && (tx.sta.isSome && tx.staMfp) && isRobustMgmtFrame tx.frame

def World.pick (w : World) (tx : TxData) : Option Nat :=
  if tx.dontEncrypt then none
  else
    match tx.sta.bind fun s => w.refs.slot (.ptk s (w.refs.ptkIdx s)) with
    | some k => some k
    | none =>
      let mgmt := if isMgmt tx.frameControl && tx.multicast && isRobustMgmtFrame tx.frame then w.refs.defaultMgmtKey tx.sdata else none
      let multicast := if tx.multicast then w.refs.defaultMulticastKey tx.sdata else none
      let unicast := if !tx.multicast then w.refs.defaultUnicastKey tx.sdata else none
      mgmt <|> multicast <|> unicast

def CipherSuite.keeps (cipher : CipherSuite) (fc : UInt16) (useMfp : Bool) : Bool :=
  match cipher with
  | .wep40 | .wep104 | .tkip => isDataPresent fc
  | .ccmp | .ccmp256 | .gcmp | .gcmp256 => isDataPresent fc || useMfp
  | .aesCmac | .bipCmac256 | .bipGmac128 | .bipGmac256 => isMgmt fc
  | .other => true

def CipherSuite.skipHw (cipher : CipherSuite) (fc : UInt16) (f : KeyFlags) : Bool :=
  match cipher with
  | .ccmp | .ccmp256 | .gcmp | .gcmp256 => f.swMgmtTx && isMgmt fc
  | _ => false

structure Selected where
  key : Option Nat
  hwKey : Option Nat
  drop : Bool

def World.selectKey (w : World) (tx : TxData) : Selected :=
  match w.pick tx with
  | none => ⟨none,none,false⟩
  | some k =>
    match w.refs.key k with
    | none => ⟨none,none,false⟩
    | some key =>
      let f := w.flags k
      if !key.cipher.keeps tx.frameControl tx.useMfp then ⟨none,none,false⟩
      else if f.tainted && !isDeauth tx.frameControl then ⟨some k,none,true⟩
      else ⟨some k,if !key.cipher.skipHw tx.frameControl f && f.uploaded then some k else none,false⟩

inductive PairwiseOp where
  | install (sdata : Nat) (cipher : CipherSuite) (idx : Fin numDefaultKeys) (reply : Reply)
  | remove (idx : Nat)
  | removeByDriver (k : Nat)

def pairwiseKey (s sdata : Nat) (cipher : CipherSuite) (idx : Fin numDefaultKeys) : Key := ⟨cipher,idx,true,sdata,some s,idx.isLt⟩

def World.pairwise (s : Nat) (w : World) : PairwiseOp → World
  | .install sdata cipher idx reply => (w.keyLink (pairwiseKey s sdata cipher idx) reply).1
  | .remove idx => w.delKey (.ptk s idx)
  | .removeByDriver k => w.removeKey k

def Key.pairwiseOf (key : Key) (s : Nat) : Bool := key.pairwise && key.sta == some s

-- Removing the key of any index forgets the last one: ptk_idx is set on removal too.
def PairwiseOp.latest (s : Nat) (w : World) (last : Option CipherSuite) : PairwiseOp → Option CipherSuite
  | .install sdata cipher idx reply => if (w.keyLink (pairwiseKey s sdata cipher idx) reply).2 = 0 then some cipher else none
  | .remove idx => if (w.refs.slot (.ptk s idx)).isSome then none else last
  | .removeByDriver k => if (w.refs.key k).any fun key => key.pairwiseOf s then none else last

def pairwiseRun (s : Nat) : List PairwiseOp → World → World
  | [],w => w
  | op :: rest,w => pairwiseRun s rest (w.pairwise s op)

def latest (s : Nat) : List PairwiseOp → World → Option CipherSuite → Option CipherSuite
  | [],_,last => last
  | op :: rest,w,last => latest s rest (w.pairwise s op) (op.latest s w last)

def Refs.current (r : Refs) (s : Nat) : Option CipherSuite := ((r.slot (.ptk s (r.ptkIdx s))).bind r.key).map Key.cipher

section replaced
variable {r : Refs}

theorem ptkIdx_dropped (r : Refs) (old : Option Nat) : (r.dropped old).ptkIdx = r.ptkIdx := by
  cases old with
  | none => rfl
  | some k =>
    change (r.listDel k).ptkIdx = _
    unfold Refs.listDel
    split <;> rfl

theorem ptkIdx_setDefaults (r : Refs) (i : Nat) (idx : Int) (uni multi mgmt : Bool) :
    (r.setDefaults i idx uni multi mgmt).ptkIdx = r.ptkIdx := by
  cases uni <;> cases multi <;> cases mgmt <;> rfl

theorem ptkIdx_replaceDefault (r : Refs) (i idx : Nat) (old new : Option Nat) : (r.replaceDefault i idx old new).ptkIdx = r.ptkIdx := by
  cases new <;> exact ptkIdx_setDefaults _ _ _ _ _ _

theorem ptkIdx_added (r : Refs) (i : Nat) (new : Option Nat) : (r.added i new).ptkIdx = r.ptkIdx := by
  cases new <;> rfl

theorem ptkIdx_keyReplace (given : (new.isNone && old.isNone) = false) (index : r.used old new = idx) :
    (r.keyReplace i (some s) true old new).ptkIdx = update r.ptkIdx s idx := by
  rw [keyReplace_parts given,ptkIdx_dropped,index]
  change update (r.added i new).ptkIdx s idx = _
  rw [ptkIdx_added]

theorem ptkIdx_other (other : (pairwise && sta == some s) = false) :
    (r.keyReplace i sta pairwise old new).ptkIdx s = r.ptkIdx s := by
  cases given : new.isNone && old.isNone with
  | true =>
    unfold Refs.keyReplace
    rw [given]
    rfl
  | false =>
    rw [keyReplace_parts given,ptkIdx_dropped]
    cases sta with
    | none =>
      change ((r.added i new).replaceDefault i _ old new).ptkIdx s = _
      rw [ptkIdx_replaceDefault,ptkIdx_added]
    | some t =>
      cases pairwise with
      | false =>
        change (r.added i new).ptkIdx s = _
        rw [ptkIdx_added]
      | true =>
        have apart : s ≠ t := by
          rintro rfl
          simp at other
        change update (r.added i new).ptkIdx t _ s = _
        rw [update_of_ne apart,ptkIdx_added]

end replaced

theorem ptk_key (key : Key) (same : key.slot = .ptk s idx) : key.pairwise = true ∧ key.sta = some s ∧ key.keyidx = idx := by
  obtain ⟨_,_,pairwise,_,sta,_⟩ := key
  cases sta <;> cases pairwise <;> cases same
  exact ⟨rfl,rfl,rfl⟩

theorem slot_ptk (key : Key) (pairwise : key.pairwiseOf s = true) : key.slot = .ptk s key.keyidx := by
  obtain ⟨_,_,_,_,_,_⟩ := key
  simp only [Key.pairwiseOf,Bool.and_eq_true,beq_iff_eq] at pairwise
  obtain ⟨rfl,rfl⟩ := pairwise
  rfl

theorem current_free {r : Refs} (apart : ∀ place, r.slot place ≠ some k) (s : Nat) : (r.free k).current s = r.current s := by
  unfold Refs.current
  change ((r.slot (.ptk s (r.ptkIdx s))).bind (r.free k).key).map Key.cipher = _
  cases here : r.slot (.ptk s (r.ptkIdx s)) with
  | none => rfl
  | some m =>
    have other : m ≠ k := by
      rintro rfl
      exact apart _ here
    simp [Refs.free,update_of_ne other]

section
variable {w : World}

theorem refs_keyFree (known : w.refs.key k = some key) (delayTailroom : Bool) : (w.keyFree k delayTailroom).refs =
    (w.refs.keyReplace key.sdata key.sta key.pairwise (some k) none).free k := by
  unfold World.keyFree
  rw [known]
  exact refs_destroy _ _ _

theorem current_keyFree (sound : Sound [] w.refs) (known : w.refs.key k = some key) (ours : key.pairwiseOf s = true)
    (delayTailroom : Bool) : (w.keyFree k delayTailroom).refs.current s = none := by
  have replaced := unlink_replaced sound known List.not_mem_nil
  have place := slot_ptk key ours
  obtain ⟨pairwise,station,_⟩ := ptk_key key place
  have index : (w.refs.keyReplace key.sdata key.sta key.pairwise (some k) none).ptkIdx =
      update w.refs.ptkIdx s key.keyidx := by
    rw [pairwise,station]
    refine ptkIdx_keyReplace rfl ?_
    simp [Refs.used,Refs.keyidx,known]
  rw [refs_keyFree known]
  unfold Refs.current Refs.free
  rw [index,update_self,replaced.slot,place,update_self]
  rfl

theorem current_keyFree_other (sound : Sound [] w.refs) (known : w.refs.key k = some key)
    (other : key.pairwiseOf s = false) (delayTailroom : Bool) : (w.keyFree k delayTailroom).refs.current s = w.refs.current s := by
  have replaced := unlink_replaced sound known List.not_mem_nil
  have after := unlink_sound sound known List.not_mem_nil
  have place : ∀ idx, Slot.ptk s idx ≠ key.slot := by
    intro _ same
    obtain ⟨pairwise,station,_⟩ := ptk_key key same.symm
    simp [Key.pairwiseOf,pairwise,station] at other
  have gone : ∀ place, (w.refs.keyReplace key.sdata key.sta key.pairwise (some k) none).slot place ≠ some k := by
    intro place here
    obtain ⟨_,_,_,listed⟩ := after.filled place k here
    exact after.apart k (List.mem_cons_self ..) _ listed
  rw [refs_keyFree known,current_free gone]
  unfold Refs.current
  rw [ptkIdx_other other,replaced.slot,replaced.key,update_of_ne (place _)]

theorem refs_linked (key : Key) : (w.linked key).refs =
    (w.refs.slot key.slot).elim id (fun old r => Refs.free r old)
      ((w.refs.alloc key).keyReplace key.sdata key.sta key.pairwise (w.refs.slot key.slot) (some w.refs.next)) := by
  unfold World.linked
  dsimp only
  split
  · rename_i old here
    have here : w.refs.slot key.slot = some old := here
    rw [refs_destroy,here,Option.elim_some]
    change Refs.free ((w.refs.alloc key).keyReplace _ _ _ (w.refs.slot key.slot) _) old = _
    rw [here]
  · rename_i here
    have here : w.refs.slot key.slot = none := here
    rw [here]
    change (w.refs.alloc key).keyReplace key.sdata key.sta key.pairwise (w.refs.slot key.slot) (some w.refs.next) = _
    rw [here]
    rfl

theorem current_linked (sound : Sound [] w.refs) (key : Key) (ours : key.pairwiseOf s = true) :
    (w.linked key).refs.current s = some key.cipher ∧ (w.linked key).refs.key w.refs.next = some key := by
  have replaced := link_replaced sound key
  have place := slot_ptk key ours
  obtain ⟨pairwise,station,_⟩ := ptk_key key place
  have filled := alloc_sound sound key
  have index : ((w.refs.alloc key).keyReplace key.sdata key.sta key.pairwise (w.refs.slot key.slot) (some w.refs.next)).ptkIdx =
      update w.refs.ptkIdx s key.keyidx := by
    have used : (w.refs.alloc key).used (w.refs.slot key.slot) (some w.refs.next) = key.keyidx := by
      refine used_idx filled rfl rfl fun k same => ?_
      cases same
      simp [Refs.keyidx,Refs.alloc]
    rw [pairwise,station]
    exact ptkIdx_keyReplace rfl used
  have known : ((w.refs.alloc key).keyReplace key.sdata key.sta key.pairwise (w.refs.slot key.slot) (some w.refs.next)).key
      w.refs.next = some key := by
    rw [replaced.key]
    exact update_self _ _ _
  have current : Refs.current ((w.refs.alloc key).keyReplace key.sdata key.sta key.pairwise (w.refs.slot key.slot)
      (some w.refs.next)) s = some key.cipher := by
    unfold Refs.current
    rw [index,update_self,← place,replaced.slot,update_self,Option.bind_some,known,Option.map_some]
  rw [refs_linked]
  cases here : w.refs.slot key.slot with
  | none =>
    rw [here] at current known
    exact ⟨current,known⟩
  | some old =>
    have put := link_sound sound key
    rw [here] at current known put
    have gone : ∀ place, ((w.refs.alloc key).keyReplace key.sdata key.sta key.pairwise (some old) (some w.refs.next)).slot place ≠
        some old := by
      intro place there
      obtain ⟨_,_,_,listed⟩ := put.filled place old there
      exact put.apart old (by simp) _ listed
    have other : w.refs.next ≠ old := by
      rintro rfl
      obtain ⟨_,live,_⟩ := sound.filled _ _ here
      rw [sound.fresh _ (Nat.le_refl _)] at live
      cases live
    rw [Option.elim_some,current_free gone]
    exact ⟨current,(update_of_ne other _ _).trans known⟩

theorem current_keyLink (sound : Sound [] w.refs) (key : Key) (ours : key.pairwiseOf s = true) (reply : Reply) :
    (w.keyLink key reply).1.refs.current s = if (w.keyLink key reply).2 = 0 then some key.cipher else none := by
  obtain ⟨current,known⟩ := current_linked sound key ours
  have linked := linked_sound sound key
  unfold World.keyLink
  dsimp only
  split
  · rw [if_pos rfl]
    exact current
  have enabled : Sound [] ((w.linked key).keyEnableHwAccel w.refs.next key reply).1.refs := by
    rw [refs_enable]
    exact linked
  split
  · refine current_keyFree enabled ?_ ours true
    rw [refs_enable]
    exact known
  · rename_i taken
    rw [refs_enable,if_pos (Decidable.not_not.mp taken)]
    exact current

theorem pairwise_current (sound : Sound [] w.refs) (op : PairwiseOp) :
    Sound [] (w.pairwise s op).refs ∧ (w.pairwise s op).refs.current s = op.latest s w (w.refs.current s) := by
  cases op with
  | install sdata cipher idx reply =>
    refine ⟨keyLink_sound sound _ _,current_keyLink sound (pairwiseKey s sdata cipher idx) ?_ reply⟩
    simp [Key.pairwiseOf,pairwiseKey]
  | remove idx =>
    refine ⟨delKey_sound sound _,?_⟩
    change (w.delKey (.ptk s idx)).refs.current s = if (w.refs.slot (.ptk s idx)).isSome then none else w.refs.current s
    unfold World.delKey
    cases here : w.refs.slot (.ptk s idx) with
    | none => rfl
    | some k =>
      obtain ⟨key,known,place,_⟩ := sound.filled _ k here
      obtain ⟨pairwise,station,_⟩ := ptk_key key place
      exact current_keyFree sound known (by simp [Key.pairwiseOf,pairwise,station]) true
  | removeByDriver k =>
    refine ⟨removeKey_sound sound k,?_⟩
    change (w.removeKey k).refs.current s = if (w.refs.key k).any _ then none else w.refs.current s
    unfold World.removeKey
    cases known : w.refs.key k with
    | none => rfl
    | some key =>
      have marked : ∀ before : World, before.refs = w.refs →
          (before.keyFree k false).refs.current s = if key.pairwiseOf s then none else w.refs.current s := by
        intro _ same
        rw [← same] at sound known ⊢
        split
        · rename_i ours
          exact current_keyFree sound known ours false
        · rename_i other
          exact current_keyFree_other sound known (Bool.eq_false_iff.mpr other) false
      apply marked
      split
      · split <;> rfl
      · rfl

end

theorem run_current (ops : List PairwiseOp) (sound : Sound [] w.refs) :
    Sound [] (pairwiseRun s ops w).refs ∧ (pairwiseRun s ops w).refs.current s = latest s ops w (w.refs.current s) := by
  induction ops generalizing w with
  | nil => exact ⟨sound,rfl⟩
  | cons op rest ih =>
    obtain ⟨after,current⟩ := pairwise_current (s := s) sound op
    have later := ih after
    rw [current] at later
    exact later

theorem selectKey_some (w : World) (tx : TxData) (k : Nat) : (w.selectKey tx).key = some k ↔
    w.pick tx = some k ∧ ∃ key, w.refs.key k = some key ∧ key.cipher.keeps tx.frameControl tx.useMfp = true := by
  unfold World.selectKey
  cases w.pick tx with
  | none => simp
  | some m =>
    dsimp only
    cases known : w.refs.key m with
    | none =>
      simp only [reduceCtorEq,Option.some.injEq,false_iff,not_and,not_exists]
      rintro rfl key here
      rw [known] at here
      cases here
    | some key =>
      dsimp only
      cases keeps : key.cipher.keeps tx.frameControl tx.useMfp with
      | false =>
        simp only [Bool.not_false,if_true,reduceCtorEq,Option.some.injEq,false_iff,not_and,not_exists]
        rintro rfl _ here
        rw [known] at here
        cases here
        simp [keeps]
      | true =>
        have picked : (if (!true) = true then (⟨none,none,false⟩ : Selected)
            else if ((w.flags m).tainted && !isDeauth tx.frameControl) = true then ⟨some m,none,true⟩
            else ⟨some m,if (!key.cipher.skipHw tx.frameControl (w.flags m) && (w.flags m).uploaded) = true then some m else none,false⟩).key =
            some m := by
          simp only [Bool.not_true,Bool.false_eq_true,if_false]
          split <;> rfl
        rw [picked,Option.some.injEq]
        constructor
        · rintro rfl
          exact ⟨rfl,key,known,keeps⟩
        · exact And.left

theorem data_useMfp (tx : TxData) (data : isData tx.frameControl = true) : tx.useMfp = false := by
  have mgmt : isMgmt tx.frameControl = false := by
    simp only [isData,beq_iff_eq] at data
    simp [isMgmt,data]
  simp [TxData.useMfp,mgmt]

theorem default_apart {w : World} (sound : Sound [] w.refs) (here : w.refs.slot (.ptk s idx) = some k) (kind : DefaultKey) (i : Nat) :
    w.refs.default kind i ≠ some k := by
  intro set
  obtain ⟨_,table⟩ := sound.defaults kind i k set
  obtain ⟨_,known,place,_⟩ := sound.filled _ k here
  obtain ⟨_,known',place',_⟩ := sound.filled _ k table
  cases known.symm.trans known'
  cases place.symm.trans place'

theorem pick_unicast {w : World} (receiver : tx.sta = some s) (unicast : tx.multicast = false) (clear : tx.dontEncrypt = false) :
    w.pick tx = (w.refs.slot (.ptk s (w.refs.ptkIdx s)) <|> w.refs.defaultUnicastKey tx.sdata) := by
  unfold World.pick
  rw [clear,receiver,unicast]
  simp only [Bool.false_eq_true,if_false,Option.bind_some,Bool.and_false,Bool.false_and,Bool.not_false,if_true]
  cases w.refs.slot (.ptk s (w.refs.ptkIdx s)) <;> rfl

theorem pairwise_picked (reach : Reach hw w) (unkeyed : ∀ idx, w.refs.slot (.ptk s idx) = none) (ops : List PairwiseOp) (tx : TxData)
    (receiver : tx.sta = some s) (data : isData tx.frameControl = true) (unicast : tx.multicast = false) (clear : tx.dontEncrypt = false) :
    (∃ idx k, (pairwiseRun s ops w).refs.slot (.ptk s idx) = some k ∧ ((pairwiseRun s ops w).selectKey tx).key = some k) ↔
      ∃ cipher, latest s ops w none = some cipher ∧ cipher.keeps tx.frameControl false = true := by
  have start : w.refs.current s = none := by
    unfold Refs.current
    rw [unkeyed]
    rfl
  obtain ⟨sound,current⟩ := run_current (s := s) ops (reach_sound reach)
  rw [start] at current
  rw [← current]
  generalize pairwiseRun s ops w = after at sound
  have picked := pick_unicast (w := after) receiver unicast clear
  constructor
  · rintro ⟨_,k,here,selected⟩
    obtain ⟨pick,key,known,keeps⟩ := (selectKey_some after tx k).mp selected
    rw [data_useMfp tx data] at keeps
    rw [picked] at pick
    refine ⟨key.cipher,?_,keeps⟩
    unfold Refs.current
    cases slot : after.refs.slot (.ptk s (after.refs.ptkIdx s)) with
    | none =>
      rw [slot] at pick
      exact absurd pick (default_apart sound here .unicast tx.sdata)
    | some m =>
      rw [slot] at pick
      cases pick
      rw [Option.bind_some,known,Option.map_some]
  · rintro ⟨_,here,_⟩
    unfold Refs.current at here
    rw [Option.map_eq_some_iff] at here
    obtain ⟨key,found,rfl⟩ := here
    obtain ⟨k,slot,known⟩ := Option.bind_eq_some_iff.mp found
    refine ⟨_,k,slot,(selectKey_some after tx k).mpr ⟨?_,key,known,?_⟩⟩
    · rw [picked,slot]
      rfl
    · rwa [data_useMfp tx data]

def dataTx : TxData :=
  let hdr : Hdr := ⟨0x0208,macAddr 0x02 0 0 0 0 1,macAddr 0x02 0 0 0 0 2,macAddr 0x02 0 0 0 0 2,0,Vector.replicate 6 0,0⟩
  ⟨0,some 0,false,false,⟨hdr,[0xaa,0xaa,0x03]⟩⟩

def wepInstall (idx : Fin 4) : PairwiseOp := .install 0 .wep40 idx accepted

theorem pairwise_picked_new :
    ∃ idx k, (pairwiseRun 0 [wepInstall 0] (initial plainHw)).refs.slot (.ptk 0 idx) = some k ∧
      ((pairwiseRun 0 [wepInstall 0] (initial plainHw)).selectKey dataTx).key = some k :=
  (pairwise_picked .initial (fun _ => rfl) [wepInstall 0] dataTx rfl (by decide) (by decide) rfl).mpr
    ⟨.wep40,by decide,by decide⟩

theorem keyed_plain : ¬ ∀ (ops : List PairwiseOp) (tx : TxData), tx.sta = some 0 → isData tx.frameControl = true →
    tx.multicast = false → tx.dontEncrypt = false →
    (∃ idx k, (pairwiseRun 0 ops (initial plainHw)).refs.slot (.ptk 0 idx) = some k) →
    ∃ idx k, (pairwiseRun 0 ops (initial plainHw)).refs.slot (.ptk 0 idx) = some k ∧
      ((pairwiseRun 0 ops (initial plainHw)).selectKey tx).key = some k := by
  intro always
  obtain ⟨_,k,_,picked⟩ := always [wepInstall 0,wepInstall 1,.remove 1] dataTx rfl (by decide)
    (by decide) rfl ⟨0,0,by decide⟩
  have plain : ((pairwiseRun 0 [wepInstall 0,wepInstall 1,.remove 1] (initial plainHw)).selectKey dataTx).key = none := by decide
  cases plain.symm.trans picked

end Mac80211.Keys

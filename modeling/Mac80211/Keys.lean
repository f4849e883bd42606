import Mac80211.Ieee80211

namespace Mac80211.Keys
open Ieee80211
open Function (update)

def numDefaultKeys : Nat := 4
def numDefaultMgmtKeys : Nat := 2

inductive CipherSuite where
  | wep40 | wep104 | tkip | ccmp | ccmp256 | gcmp | gcmp256 | aesCmac | bipCmac256 | bipGmac128 | bipGmac256 | other
deriving DecidableEq

-- ieee80211_key_alloc checks the index, and cfg80211 gives pairwise keys one of those of sta->ptk.
structure Key where
  cipher : CipherSuite
  keyidx : Nat
  pairwise : Bool
  sdata : Nat
  sta : Option Nat
  bounded : keyidx < if pairwise && sta.isSome then numDefaultKeys else numDefaultKeys + numDefaultMgmtKeys

inductive Slot where
  | ptk (sta idx : Nat)
  | gtk (sta idx : Nat)
  | keys (sdata idx : Nat)
deriving DecidableEq

def slotOf (sdata : Nat) (sta : Option Nat) (pairwise : Bool) (idx : Nat) : Slot :=
  match sta with
  | some s => if pairwise then .ptk s idx else .gtk s idx
  | none => .keys sdata idx

def Key.slot (key : Key) : Slot := slotOf key.sdata key.sta key.pairwise key.keyidx

-- A key that is destroyed, or not yet there, is not found any more.
structure Refs where
  key : Nat → Option Key
  next : Nat
  slot : Slot → Option Nat
  keyList : Nat → List Nat
  defaultUnicastKey : Nat → Option Nat
  defaultMulticastKey : Nat → Option Nat
  defaultMgmtKey : Nat → Option Nat
  ptkIdx : Nat → Nat
  gtkIdx : Nat → Nat

def Refs.setDefaultKey (r : Refs) (i : Nat) (idx : Int) (uni multi : Bool) : Refs :=
  let key := if 0 ≤ idx ∧ idx < numDefaultKeys then r.slot (.keys i idx.toNat) else none
  let r := if uni then {r with defaultUnicastKey := update r.defaultUnicastKey i key} else r
  if multi then {r with defaultMulticastKey := update r.defaultMulticastKey i key} else r

def Refs.setDefaultMgmtKey (r : Refs) (i : Nat) (idx : Int) : Refs :=
  let key := if numDefaultKeys ≤ idx ∧ idx < numDefaultKeys + numDefaultMgmtKeys then r.slot (.keys i idx.toNat) else none
  {r with defaultMgmtKey := update r.defaultMgmtKey i key}

def Refs.assign (r : Refs) (place : Slot) (new : Option Nat) : Refs := {r with slot := update r.slot place new}

def Refs.keyidx (r : Refs) (k : Nat) : Nat := ((r.key k).map Key.keyidx).getD 0

def Refs.listAddTail (r : Refs) (i k : Nat) : Refs := {r with keyList := update r.keyList i (r.keyList i ++ [k])}

def Refs.listDel (r : Refs) (k : Nat) : Refs :=
  match r.key k with
  | none => r
  | some key => {r with keyList := update r.keyList key.sdata ((r.keyList key.sdata).erase k)}

def Refs.setDefaults (r : Refs) (i : Nat) (idx : Int) (uni multi mgmt : Bool) : Refs :=
  let r := if uni then r.setDefaultKey i idx true false else r
  let r := if multi then r.setDefaultKey i idx false true else r
  if mgmt then r.setDefaultMgmtKey i idx else r

def Refs.replaceDefault (r : Refs) (i idx : Nat) (old new : Option Nat) : Refs :=
  let defunikey := old.isSome && old == r.defaultUnicastKey i
  let defmultikey := old.isSome && old == r.defaultMulticastKey i
  let defmgmtkey := old.isSome && old == r.defaultMgmtKey i
  let r := if new.isNone then r.setDefaults i (-1) defunikey defmultikey defmgmtkey else r
  let r := r.assign (.keys i idx) new
  if new.isSome then r.setDefaults i idx defunikey defmultikey defmgmtkey else r

def Refs.replaceSlot (r : Refs) (i : Nat) (sta : Option Nat) (pairwise : Bool) (idx : Nat) (old new : Option Nat) : Refs :=
  match sta with
  | some s =>
    if pairwise then {r.assign (.ptk s idx) new with ptkIdx := update r.ptkIdx s idx}
    else {r.assign (.gtk s idx) new with gtkIdx := update r.gtkIdx s idx}
  | none => r.replaceDefault i idx old new

def Refs.keyReplace (r : Refs) (i : Nat) (sta : Option Nat) (pairwise : Bool) (old new : Option Nat) : Refs :=
  if new.isNone && old.isNone then r
  else
    let r := match new with
      | some k => r.listAddTail i k
      | none => r
    let idx := match old with
      | some k => r.keyidx k
      | none => (new.map r.keyidx).getD 0
    let r := r.replaceSlot i sta pairwise idx old new
    match old with
    | some k => r.listDel k
    | none => r

def Refs.alloc (r : Refs) (key : Key) : Refs := {r with key := update r.key r.next (some key),next := r.next + 1}
def Refs.free (r : Refs) (k : Nat) : Refs := {r with key := update r.key k none}

structure KeyFlags where
  uploaded : Bool
  tainted : Bool
  generateMmic : Bool
  reserveTailroom : Bool
  swMgmtTx : Bool

def noFlags : KeyFlags := ⟨false,false,false,false,false⟩

def KeyFlags.needsTailroom (f : KeyFlags) : Bool := f.generateMmic || f.reserveTailroom

structure Hw where
  setKey : Bool
  supportsPerStaGtk : Bool
  swCryptoControl : Bool

structure World where
  hw : Hw
  refs : Refs
  flags : Nat → KeyFlags
  cryptoTxTailroomNeededCnt : Nat → Int
  cryptoTxTailroomPendingDec : Nat → Int
  staUploaded : Nat → Bool
  apVlan : Nat → Bool
  vlans : Nat → List Nat
  wowlan : Bool

structure Reply where
  ret : Int
  generateMmic : Bool
  reserveTailroom : Bool
  swMgmtTx : Bool

def World.addNeeded (w : World) (i : Nat) (d : Int) : World :=
  {w with cryptoTxTailroomNeededCnt := update w.cryptoTxTailroomNeededCnt i (w.cryptoTxTailroomNeededCnt i + d)}

def World.addPending (w : World) (i : Nat) : World :=
  {w with cryptoTxTailroomPendingDec := update w.cryptoTxTailroomPendingDec i (w.cryptoTxTailroomPendingDec i + 1)}

def World.setFlags (w : World) (k : Nat) (f : KeyFlags) : World := {w with flags := update w.flags k f}

def World.offered (w : World) (key : Key) : Bool :=
  w.hw.setKey && !(key.sta.isSome && !key.pairwise && !w.hw.supportsPerStaGtk) && !(key.sta.any fun s => !w.staUploaded s) &&
    !(w.apVlan key.sdata && !key.pairwise)

def Hw.outUnsupported (hw : Hw) (cipher : CipherSuite) (ret : Int) : Int :=
  match cipher with
  | .other => -22
  | _ => if ret = 1 then 0 else if hw.swCryptoControl then -22 else 0

def World.keyEnableHwAccel (w : World) (k : Nat) (key : Key) (reply : Reply) : World × Int :=
  let f := w.flags k
  if f.tainted then (w.setFlags k {f with uploaded := false},-22)
  else if !w.offered key then (w,w.hw.outUnsupported key.cipher (-95))
  else
    let f := {f with generateMmic := reply.generateMmic,reserveTailroom := reply.reserveTailroom,swMgmtTx := reply.swMgmtTx}
    if reply.ret = 0 then
      let w := w.setFlags k {f with uploaded := true}
      (if f.needsTailroom then w else w.addNeeded key.sdata (-1),0)
    else (w.setFlags k f,w.hw.outUnsupported key.cipher reply.ret)

def World.keyDisableHwAccel (w : World) (k : Nat) (key : Key) : World :=
  let f := w.flags k
  if !w.hw.setKey || !f.uploaded then w
  else
    let w := if f.needsTailroom then w else w.addNeeded key.sdata 1
    w.setFlags k {f with uploaded := false}

def World.keyDestroy (w : World) (k : Nat) (delayTailroom : Bool) : World :=
  match w.refs.key k with
  | none => w
  | some key =>
    let w := w.keyDisableHwAccel k key
    let w := if delayTailroom then w.addPending key.sdata else w.addNeeded key.sdata (-1)
    {w with refs := w.refs.free k}

def World.replace (w : World) (key : Key) (old new : Option Nat) : World :=
  {w with refs := w.refs.keyReplace key.sdata key.sta key.pairwise old new}

def World.keyFree (w : World) (k : Nat) (delayTailroom : Bool) : World :=
  match w.refs.key k with
  | none => w
  | some key => (w.replace key (some k) none).keyDestroy k delayTailroom

def World.linked (w : World) (key : Key) : World :=
  let k := w.refs.next
  let w := {w with refs := w.refs.alloc key}.setFlags k noFlags
  let old := w.refs.slot key.slot
  let w := w.addNeeded key.sdata 1
  let w := w.replace key old (some k)
  match old with
  | some old => w.keyDestroy old true
  | none => w

def World.keyLink (w : World) (key : Key) (reply : Reply) : World × Int :=
  let k := w.refs.next
  let w := w.linked key
  if w.wowlan then (w,0)
  else
    let out := w.keyEnableHwAccel k key reply
    if out.2 ≠ 0 then (out.1.keyFree k true,out.2) else out

def World.delKey (w : World) (place : Slot) : World :=
  match w.refs.slot place with
  | none => w
  | some k => w.keyFree k true

def World.removeKey (w : World) (k : Nat) : World :=
  match w.refs.key k with
  | none => w
  | some key =>
    let f := w.flags k
    let w := if f.uploaded then
        let w := w.setFlags k {f with uploaded := false}
        if f.needsTailroom then w else w.addNeeded key.sdata 1
      else w
    w.keyFree k false

def World.enableKey (replies : Nat → Reply) (w : World) (k : Nat) : World :=
  match w.refs.key k with
  | none => w
  | some key => ((w.addNeeded key.sdata 1).keyEnableHwAccel k key (replies k)).1

def World.resetNeeded (w : World) (i : Nat) : World :=
  {w with cryptoTxTailroomNeededCnt := update w.cryptoTxTailroomNeededCnt i 0}

def World.enableKeys (w : World) (i : Nat) (replies : Nat → Reply) : World :=
  (w.refs.keyList i).foldl (World.enableKey replies) (w.resetNeeded i)

def World.delayedTailroomDec (w : World) (i : Nat) : World :=
  {w.addNeeded i (-w.cryptoTxTailroomPendingDec i) with
    cryptoTxTailroomPendingDec := update w.cryptoTxTailroomPendingDec i 0}

def World.unlink (w : World) (k : Nat) : World :=
  match w.refs.key k with
  | none => w
  | some key => w.replace key (some k) none

def World.freeKeysIface (w : World) (i : Nat) : World × List Nat :=
  let keys := w.refs.keyList i
  (keys.foldl World.unlink (w.delayedTailroomDec i),keys)

def World.freeKeysIfaces (w : World) : List Nat → World × List Nat
  | [] => (w,[])
  | i :: rest =>
    let out := w.freeKeysIface i
    let more := out.1.freeKeysIfaces rest
    (more.1,out.2 ++ more.2)

def World.freeKeys (w : World) (i : Nat) : World :=
  let out := w.freeKeysIfaces (i :: w.vlans i)
  out.2.foldl (fun w k => w.keyDestroy k false) out.1

def World.freeStaKeys (w : World) (s : Nat) : World :=
  let w := (List.range (numDefaultKeys + numDefaultMgmtKeys)).foldl (fun w idx => w.delKey (.gtk s idx)) w
  (List.range numDefaultKeys).foldl (fun w idx => w.delKey (.ptk s idx)) w

def World.taint (w : World) (i : Nat) : World :=
  {w with flags := fun k => if k ∈ w.refs.keyList i then {w.flags k with tainted := true} else w.flags k}

inductive Event where
  | link (key : Key) (reply : Reply)
  | delKey (place : Slot)
  | removeKey (k : Nat)
  | setDefaultKey (i : Nat) (idx : Int) (uni multi : Bool)
  | setDefaultMgmtKey (i : Nat) (idx : Int)
  | freeStaKeys (s : Nat)
  | freeKeys (i : Nat)
  | enableKeys (i : Nat) (replies : Nat → Reply)
  | delayedTailroomDec (i : Nat)
  | taint (i : Nat)
  | around (staUploaded apVlan : Nat → Bool) (vlans : Nat → List Nat) (wowlan : Bool)

def step (w : World) : Event → World
  | .link key reply => (w.keyLink key reply).1
  | .delKey place => w.delKey place
  | .removeKey k => w.removeKey k
  | .setDefaultKey i idx uni multi => {w with refs := w.refs.setDefaultKey i idx uni multi}
  | .setDefaultMgmtKey i idx => {w with refs := w.refs.setDefaultMgmtKey i idx}
  | .freeStaKeys s => w.freeStaKeys s
  | .freeKeys i => w.freeKeys i
  | .enableKeys i replies => w.enableKeys i replies
  | .delayedTailroomDec i => w.delayedTailroomDec i
  | .taint i => w.taint i
  | .around staUploaded apVlan vlans wowlan =>
    {w with staUploaded := staUploaded,apVlan := apVlan,vlans := vlans,wowlan := wowlan}

def noRefs : Refs where
  key := fun _ => none
  next := 0
  slot := fun _ => none
  keyList := fun _ => []
  defaultUnicastKey := fun _ => none
  defaultMulticastKey := fun _ => none
  defaultMgmtKey := fun _ => none
  ptkIdx := fun _ => 0
  gtkIdx := fun _ => 0

def initial (hw : Hw) : World :=
  ⟨hw,noRefs,fun _ => noFlags,fun _ => 0,fun _ => 0,fun _ => false,fun _ => false,fun _ => [],false⟩

inductive Reach (hw : Hw) : World → Prop where
  | initial : Reach hw (initial hw)
  | step (prior : Reach hw w) (e : Event) : Reach hw (step w e)

end Mac80211.Keys

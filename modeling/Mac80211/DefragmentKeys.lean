import Mac80211.Defragment
import Mac80211.Wpa

namespace Mac80211.DefragmentKeys
open Ieee80211
open Defragment (Rx Sdata Result rxHDefragment reassembleFind addFragment fragmentMax)
open RxReorder (Jiffies)
open Wpa (Aead Cipher Pn)

inductive Suite where
  | wep | ccmp | ccmp256 | gcmp | gcmp256 | other
deriving DecidableEq

def Suite.cipher : Suite → Option Cipher
  | .ccmp => some Wpa.ccmp
  | .ccmp256 => some Wpa.ccmp256
  | .gcmp => some Wpa.gcmp
  | .gcmp256 => some Wpa.gcmp
  | _ => none

def Suite.isCcmp : Suite → Bool
  | .ccmp => true
  | .ccmp256 => true
  | _ => false

structure Key where
  suite : Suite
  tainted : Bool
  state : Wpa.Key

structure StaKeys where
  ptk : List (Option Nat)
  ptkIdx : Nat
  gtk : List (Option Nat)

structure World where
  hz : UInt16
  keys : List Key
  stas : List StaKeys
  sdataKeys : List (Option Nat)
  defaultMgmtKey : Option Nat
  fragments : Sdata

-- stale: rx->key before; other: what another cipher leaves of the body; strippedPn: the number the device
-- took off with the IV.
structure RxFrame where
  skb : Mpdu
  sta : Option Nat
  raMatch : Bool
  decrypted : Bool
  ivStripped : Bool
  mmieKeyidx : Option Nat
  stale : Option Nat
  other : Option (List UInt8)
  strippedPn : Pn
  pulled : Bool
  trimmed : Bool
  stack : Nat → UInt8
  jiffies : Jiffies
  tailroom : Nat
  linear : Bool
  expanded : Bool

def RxFrame.fc (f : RxFrame) : UInt16 := f.skb.hdr.frameControl
def RxFrame.stripped (f : RxFrame) : Bool := f.decrypted && f.ivStripped

def RxFrame.checked (f : RxFrame) : Bool := f.raMatch && (f.stripped || isData f.fc || isRobustMgmtFrame f.skb)

def seqnoIdx (h : Hdr) : Nat := if isDataQos h.frameControl then (qosTid h).toNat else numTids

def numDefaultKeys : Nat := 4
def numDefaultMgmtKeys : Nat := 2

def slot (keys : List (Option Nat)) (idx : Nat) : Option Nat := (keys[idx]?).bind id
def firstKey (keys : List (Option Nat)) : Option Nat := (keys.take numDefaultKeys).findSome? id

def orElse (a b : Option Nat) : Option Nat := match a with
  | some k => some k
  | none => b

inductive Selected where
  | pass (key : Option Nat)
  | drop
  | decrypt (key : Nat)

def World.indexed (w : World) (f : RxFrame) (sta : Option StaKeys) : Selected :=
  if f.stripped then .pass none
  else if f.skb.body.length < 8 then .drop
  else
    let keyidx := (f.skb.body.getD 3 0 >>> 6).toNat
    let multicast := isMulticastEtherAddr f.skb.hdr.addr1
    match if multicast then sta.bind fun sta => slot sta.gtk keyidx else none with
    | some key => .decrypt key
    | none =>
      match slot w.sdataKeys keyidx with
      | none => .drop
      | some key =>
        if ((w.keys[key]?).any fun key => key.suite == .wep) || multicast then .decrypt key else .drop

def World.bip (w : World) (f : RxFrame) (sta : Option StaKeys) (idx : Nat) : Selected :=
  if f.stripped then .pass none
  else if idx < numDefaultKeys || idx ≥ numDefaultKeys + numDefaultMgmtKeys then .drop
  else
    match orElse (sta.bind fun sta => slot sta.gtk idx) (slot w.sdataKeys idx) with
    | none => .drop
    | some key => .decrypt key

def World.unprotected (w : World) (f : RxFrame) (sta : Option StaKeys) : Selected :=
  if isMgmt f.fc && isMulticastEtherAddr f.skb.hdr.addr1 && w.defaultMgmtKey.isSome then .pass w.defaultMgmtKey
  else .pass (orElse (sta.bind fun sta => firstKey sta.gtk) (firstKey w.sdataKeys))

def World.selectKey (w : World) (f : RxFrame) : Selected :=
  if !f.raMatch then .pass f.stale
  else
    let sta := f.sta.bind fun i => w.stas[i]?
    let ptk := sta.bind fun sta => slot sta.ptk sta.ptkIdx
    match if isMulticastEtherAddr f.skb.hdr.addr1 then none else ptk with
    | some key => if f.stripped || !hasProtected f.fc then .pass (some key) else .decrypt key
    | none =>
      if hasProtected f.fc then w.indexed f sta
      else
        match f.mmieKeyidx with
        | some idx => w.bip f sta idx
        | none => w.unprotected f sta

-- rx, the key selected with its cipher, the key it is verified under, and its packet number.
structure Part where
  rx : Rx
  key : Option (Nat × Suite)
  checked : Bool
  stripped : Bool
  verified : Option (Nat × Suite)
  number : Pn

def World.key (w : World) (k : Nat) : Option (Nat × Suite) := (w.keys[k]?).map fun key => (k,key.suite)

def World.rxPn (w : World) (key : Option Nat) (h : Hdr) : List UInt8 :=
  ((key.bind fun k => w.keys[k]?).map fun key => (key.state.rxPn (securityIdx h)).toList).getD []

def World.part (w : World) (f : RxFrame) (key : Option Nat) (m : Mpdu) (verified : Bool) : Part where
  rx := ⟨m,seqnoIdx m.hdr,(key.bind w.key).any fun k => k.2.isCcmp,w.rxPn key m.hdr,f.jiffies,f.tailroom,f.linear,f.expanded⟩
  key := key.bind w.key
  checked := f.checked
  stripped := f.stripped
  verified := if verified && hasProtected f.fc then key.bind w.key else none
  number := if f.stripped then f.strippedPn else Wpa.hdr2pn f.skb.body

def RxFrame.rxData (f : RxFrame) : Wpa.RxData := ⟨f.skb,f.decrypted,f.sta.isSome,f.pulled,f.trimmed,f.stack⟩

section decrypt
variable (aead : Aead)

def World.decryptWith (w : World) (f : RxFrame) (k : Nat) (key : Key) : World × Option (Mpdu × Bool) :=
  if key.tainted then (w,none)
  else
    match key.suite.cipher with
    | none => (w,f.other.map fun body => ({f.skb with body := body},true))
    | some c =>
      let out := Wpa.cryptoDecrypt aead c key.state f.rxData
      ({w with keys := w.keys.set k {key with state := out.1}},
        match out.2 with
        | .dropUnusable => none
        | .notEncrypted => some (f.skb,false)
        | .accepted m => some (m,true))

def World.rxHDecrypt (w : World) (f : RxFrame) : World × Option Part :=
  match w.selectKey f with
  | .drop => (w,none)
  | .pass key => (w,some (w.part f key f.skb (f.raMatch && f.stripped)))
  | .decrypt k =>
    match w.keys[k]? with
    | none => (w,none)
    | some key =>
      let out := w.decryptWith aead f k key
      (out.1,out.2.map fun m => out.1.part f (some k) m.1 m.2)

def kept (s : Sdata) (parts : Nat → List Part) : Nat → List Part :=
  fun idx => if (s.fragments idx).skbList.isEmpty then [] else parts idx

def follow (hz : UInt16) (s : Sdata) (parts : Nat → List Part) (part : Part) : (Nat → List Part) × Option (List Part) :=
  let rx := part.rx
  if isCtl rx.fc || isMulticastEtherAddr rx.skb.hdr.addr1 || !hasMoreFrags rx.fc && rx.frag == 0 then (parts,some [part])
  else if !rx.linear then (parts,none)
  else if rx.frag = 0 then (Function.update parts s.fragmentNext [part],none)
  else
    match reassembleFind hz rx fragmentMax s.fragmentNext s with
    | (s,none) => (kept s parts,none)
    | (s,some idx) =>
      let joined := kept s parts idx ++ [part]
      match addFragment s idx rx with
      | (_,.queued) => (Function.update (kept s parts) idx joined,none)
      | (_,.continue _) => (Function.update (kept s parts) idx [],some joined)
      | (after,_) => (kept after (kept s parts),none)

structure Traced where
  world : World
  parts : Nat → List Part
  delivered : List (List Part × Mpdu)

def Traced.defragment (t : Traced) (part : Part) : Traced :=
  let out := rxHDefragment t.world.hz t.world.fragments part.rx
  let followed := follow t.world.hz t.world.fragments t.parts part
  {world := {t.world with fragments := out.1},
    parts := followed.1,
    delivered := match out.2,followed.2 with
      | .continue m,some parts => t.delivered ++ [(parts,m)]
      | _,_ => t.delivered}

def Traced.rx (t : Traced) (f : RxFrame) : Traced :=
  let out := t.world.rxHDecrypt aead f
  match out.2 with
  | none => {t with world := out.1}
  | some part => {t with world := out.1}.defragment part

-- Keys come and go and their counters are set at any time; purge: the interface goes down.
inductive Event where
  | rx (f : RxFrame)
  | install (key : Key)
  | tables (stas : List StaKeys) (sdataKeys : List (Option Nat)) (defaultMgmtKey : Option Nat)
  | taint (k : Nat) (tainted : Bool)
  | setRxSeq (k : Nat) (state : Wpa.Key)
  | purge

def World.modKey (w : World) (k : Nat) (f : Key → Key) : World := {w with keys := w.keys.modify k f}

def Traced.step (t : Traced) : Event → Traced
  | .rx f => t.rx aead f
  | .install key => {t with world := {t.world with keys := t.world.keys ++ [key]}}
  | .tables stas sdataKeys defaultMgmtKey =>
    {t with world := {t.world with stas := stas,sdataKeys := sdataKeys,defaultMgmtKey := defaultMgmtKey}}
  | .taint k tainted => {t with world := t.world.modKey k fun key => {key with tainted := tainted}}
  | .setRxSeq k state => {t with world := t.world.modKey k fun key => {key with state := state}}
  | .purge =>
    {t with
      world := {t.world with fragments := {t.world.fragments with
        fragments := fun idx => {t.world.fragments.fragments idx with skbList := []}}},
      parts := fun _ => []}

def run (t : Traced) (events : List Event) : Traced := events.foldl (Traced.step aead) t

end decrypt

end Mac80211.DefragmentKeys

import Mac80211.BeaconHandlers
import Mac80211.Loops

namespace Mac80211.ParseElems
open BeaconRx (once microsoft dtpc eidCiscoVendorSpecific eidWideBwChannelSwitch eidChannelSwitchWrapper eidVendorSpecific)
open Tlv (Placed)

def eidMeshAwakeWindow : UInt8 := 119

inductive Ie where
  | lnkId | chSwTiming | extCapab | ssid | suppRates | dsParams | tim | challenge | rsn | erpInfo | extSuppRates | wmmInfo | wmmParam
  | htCapElem | htOperation | vhtCapElem | vhtOperation | meshConfig | meshId | peering | awakeWindow | preq | prep | perr | rann
  | chSwitchIe | extChanswIe | wideBwChanswIe | countryElem | pwrConstrElem | ciscoDtpcElem | timeoutInt | opmodeNotif | secChanOffs
  | meshChanswParamsIe
deriving DecidableEq

def Ie.recorded : Ie → Bool
  | .extCapab | .ssid | .suppRates | .tim | .challenge | .rsn | .extSuppRates | .wmmInfo | .wmmParam | .meshId | .peering | .preq | .prep
  | .perr | .countryElem => true
  | _ => false

-- Of its bytes where the pointer is none.
def Ie.size : Ie → Nat
  | .lnkId => 20
  | .chSwTiming => 4
  | .dsParams | .erpInfo | .pwrConstrElem | .opmodeNotif | .secChanOffs => 1
  | .tim => 4
  | .htCapElem => 26
  | .htOperation => 22
  | .vhtCapElem => 12
  | .vhtOperation => 5
  | .meshConfig => 7
  | .awakeWindow => 2
  | .rann => 21
  | .chSwitchIe | .wideBwChanswIe => 3
  | .extChanswIe => 4
  | .ciscoDtpcElem | .meshChanswParamsIe => 6
  | .timeoutInt => 5
  | _ => 0

-- A pointer is a position in the input.
structure Elems where
  ieStart : Nat
  totalLen : Nat
  ptr : Ie → Option Nat
  len : Ie → UInt8
  parseError : Bool

def Elems.extent (elems : Elems) (ie : Ie) : Nat := max ie.size (elems.len ie).toNat

inductive Rule where
  | any | atLeast (n : Nat) | exactly (n : Nat)
deriving DecidableEq

def Rule.ok (elen : Nat) : Rule → Bool
  | .any => true
  | .atLeast n => n ≤ elen
  | .exactly n => elen = n

structure Row where
  id : UInt8
  ie : Ie
  rule : Rule
  back : Nat
  actionOnly : Bool
deriving DecidableEq

def Row.wellFormed (action : Bool) (r : Row) (elen : Nat) : Bool := (action || !r.actionOnly) && r.rule.ok elen

def rows : List Row :=
  [⟨101,.lnkId,.exactly 18,2,false⟩,⟨104,.chSwTiming,.exactly 4,0,false⟩,⟨127,.extCapab,.any,0,false⟩,
    ⟨0,.ssid,.any,0,false⟩,⟨1,.suppRates,.any,0,false⟩,⟨3,.dsParams,.atLeast 1,0,false⟩,⟨5,.tim,.atLeast 4,0,false⟩,
    ⟨16,.challenge,.any,0,false⟩,⟨48,.rsn,.any,0,false⟩,⟨42,.erpInfo,.atLeast 1,0,false⟩,⟨50,.extSuppRates,.any,0,false⟩,
    ⟨45,.htCapElem,.atLeast 26,0,false⟩,⟨61,.htOperation,.atLeast 22,0,false⟩,⟨191,.vhtCapElem,.atLeast 12,0,false⟩,
    ⟨192,.vhtOperation,.atLeast 5,0,false⟩,⟨199,.opmodeNotif,.atLeast 1,0,false⟩,⟨114,.meshId,.any,0,false⟩,
    ⟨113,.meshConfig,.atLeast 7,0,false⟩,⟨117,.peering,.any,0,false⟩,⟨130,.preq,.any,0,false⟩,⟨131,.prep,.any,0,false⟩,
    ⟨132,.perr,.any,0,false⟩,⟨126,.rann,.atLeast 21,0,false⟩,⟨37,.chSwitchIe,.exactly 3,0,false⟩,
    ⟨60,.extChanswIe,.exactly 4,0,false⟩,⟨62,.secChanOffs,.exactly 1,0,false⟩,⟨118,.meshChanswParamsIe,.exactly 6,0,false⟩,
    ⟨eidWideBwChannelSwitch,.wideBwChanswIe,.exactly 3,0,true⟩,⟨7,.countryElem,.any,0,false⟩,⟨32,.pwrConstrElem,.exactly 1,0,false⟩,
    ⟨56,.timeoutInt,.atLeast 5,0,false⟩]

-- cfg80211_find_ie, by where an element starts, and crc32_be.
structure Ext where
  findIe : UInt8 → List UInt8 → Option Nat
  crc32Be : UInt32 → List UInt8 → UInt32

def Ext.FindsComplete (x : Ext) : Prop :=
  ∀ id data k, x.findIe id data = some k → ∃ len, data[k + 1]? = some len ∧ k + 2 + len.toNat ≤ data.length

-- The pointer it sets, whether the element goes into the checksum there and whether parsing fails.
structure Effect where
  put : Option (Ie × Nat)
  hash : Bool
  failed : Bool

def ignored : Effect := ⟨none,false,false⟩
def refused : Effect := ⟨none,false,true⟩
def taken (ie : Ie) (p : Nat) : Effect := ⟨some (ie,p),false,false⟩

def Row.effect (action : Bool) (r : Row) (pos elen : Nat) : Effect :=
  if r.wellFormed action elen then taken r.ie (pos - r.back) else refused

section reads
variable (bytes : List UInt8)

-- Up to the first byte that differs. No value is a byte that is not there.
def startsWith (pos : Nat) : List UInt8 → Option Bool
  | [] => some true
  | b :: rest => do if (← bytes[pos]?) = b then startsWith (pos + 1) rest else return false

def vendorSpecific (pos elen : Nat) : Option Effect := do
  if elen < 4 then return ignored
  if !(← startsWith bytes pos [0x00,0x50,0xf2]) then return ignored
  if elen < 5 then return {ignored with hash := true}
  if (← bytes[pos + 3]?) ≠ 2 then return {ignored with hash := true}
  let subtype ← bytes[pos + 4]?
  return ⟨if subtype = 0 then some (.wmmInfo,pos) else if subtype = 1 then some (.wmmParam,pos) else none,true,false⟩

def channelSwitchWrapper (x : Ext) (action : Bool) (pos elen : Nat) : Option Effect := do
  if action then return refused
  match x.findIe eidWideBwChannelSwitch (← Tlv.load bytes pos elen) with
  | none => return ignored
  | some k => return if (← bytes[pos + k + 1]?) = 3 then taken .wideBwChanswIe (pos + k + 2) else refused

def ciscoVendorSpecific (pos elen : Nat) : Option Effect := do
  if elen < 4 then return refused
  if !(← startsWith bytes pos [0x00,0x40,0x96,0x00]) then return ignored
  return if elen ≠ 6 then refused else ⟨some (.ciscoDtpcElem,pos),true,false⟩

def switchElem (x : Ext) (action : Bool) (id : UInt8) (pos elen : Nat) : Option Effect :=
  if id = eidVendorSpecific then vendorSpecific bytes pos elen
  else if id = eidMeshAwakeWindow then some (if 2 ≤ elen then taken .awakeWindow pos else ignored)
  else if id = eidChannelSwitchWrapper then channelSwitchWrapper bytes x action pos elen
  else if id = eidCiscoVendorSpecific then ciscoVendorSpecific bytes pos elen
  else
    match rows.find? (·.id = id) with
    | none => some ignored
    | some r => some (r.effect action pos elen)

end reads

def Elems.set (elems : Elems) (elen : Nat) : Option (Ie × Nat) → Elems
  | none => elems
  | some (ie,p) => {elems with
      ptr := Function.update elems.ptr ie (some p)
      len := if ie.recorded then Function.update elems.len ie (UInt8.ofNat elen) else elems.len}

def Elems.fail (elems : Elems) (failed : Bool) : Elems := {elems with parseError := elems.parseError || failed}

structure Walk where
  seen : UInt8 → Bool
  elems : Elems
  crc : UInt32

structure Call where
  ext : Ext
  action : Bool
  filter : UInt64

def Call.filtered (c : Call) (id : UInt8) : Bool := id < 64 && c.filter &&& (1 <<< id.toUInt64) != 0

def Call.calcCrc (c : Call) : Bool := c.filter != 0

def Call.hash (c : Call) (bytes : List UInt8) (pos elen : Nat) (on : Bool) (crc : UInt32) : Option UInt32 :=
  if on then (Tlv.load bytes (pos - 2) (elen + 2)).map (c.ext.crc32Be crc) else some crc

-- For a complete element; pos is where its data start.
def Walk.visit (c : Call) (bytes : List UInt8) (w : Walk) (id : UInt8) (pos elen : Nat) : Option Walk :=
  if once id && w.seen id then some {w with elems := w.elems.fail true}
  else do
    let crc ← c.hash bytes pos elen (c.calcCrc && c.filtered id) w.crc
    let e ← switchElem bytes c.ext c.action id pos elen
    let crc ← c.hash bytes pos elen (c.calcCrc && e.hash) crc
    return {
      seen := fun other => w.seen other || (!e.failed && other = id)
      elems := (w.elems.set elen e.put).fail e.failed
      crc := crc}

-- broken is set where the loop is left by break.
structure Loop where
  pos : Nat
  left : Nat
  walk : Walk
  broken : Bool

def Loop.more (s : Loop) : Bool := !s.broken && 2 ≤ s.left

def Loop.next (c : Call) (bytes : List UInt8) (s : Loop) : Option Loop := do
  let id ← bytes[s.pos]?
  let elen ← bytes[s.pos + 1]?
  let pos := s.pos + 2
  let left := s.left - 2
  if elen.toNat > left then return ⟨pos,left,{s.walk with elems := s.walk.elems.fail true},true⟩
  return ⟨pos + elen.toNat,left - elen.toNat,← s.walk.visit c bytes id pos elen.toNat,false⟩

def noElems (len : Nat) : Elems := ⟨0,len,fun _ => none,fun _ => 0,false⟩

def startWalk (len : Nat) (crc : UInt32) : Walk := ⟨fun _ => false,noElems len,crc⟩

-- No value is a byte read outside, or a loop that goes on after as many rounds as bytes.
def parseElemsCrc (c : Call) (start : List UInt8) (crc : UInt32) : Option (Elems × UInt32) := do
  let s ← Loops.whileM Loop.more (Loop.next c start) start.length ⟨0,start.length,startWalk start.length crc,false⟩
  return (s.walk.elems.fail (s.left ≠ 0),s.walk.crc)

end Mac80211.ParseElems

import Mac80211.Tlv
import Mac80211.Mlme

namespace Mac80211.BeaconRx
open Chan (Chandef Width)
open Mlme (Cfg80211 Sband Channel Link StaFlags Chanctx u32 noFlags noHtChandef)

def eidTim : UInt8 := 5
def eidCountry : UInt8 := 7
def eidPwrConstraint : UInt8 := 32
def eidChannelSwitch : UInt8 := 37
def eidErpInfo : UInt8 := 42
def eidHtCapability : UInt8 := 45
def eidExtChanswitchAnn : UInt8 := 60
def eidHtOperation : UInt8 := 61
def eidSecondaryChannelOffset : UInt8 := 62
def eidChanSwitchParam : UInt8 := 118
def eidCiscoVendorSpecific : UInt8 := 150
def eidVhtOperation : UInt8 := 192
def eidWideBwChannelSwitch : UInt8 := 194
def eidChannelSwitchWrapper : UInt8 := 196
def eidOpmodeNotif : UInt8 := 199
def eidVendorSpecific : UInt8 := 221

-- struct ieee802_11_elems, as far as a beacon of the AP is read.
structure Elems where
  tim : Option (List UInt8)
  wmmParam : Option (List UInt8)
  erpInfo : Option (List UInt8)
  htCapElem : Option (List UInt8)
  htOperation : Option (List UInt8)
  vhtOperation : Option (List UInt8)
  opmodeNotif : Option (List UInt8)
  chSwitchIe : Option (List UInt8)
  extChanswIe : Option (List UInt8)
  secChanOffs : Option (List UInt8)
  meshChanswParamsIe : Option (List UInt8)
  wideBwChanswIe : Option (List UInt8)
  countryElem : Option (List UInt8)
  pwrConstrElem : Option (List UInt8)
  ciscoDtpcElem : Option (List UInt8)

def noElems : Elems := ⟨none,none,none,none,none,none,none,none,none,none,none,none,none,none,none⟩

def once (id : UInt8) : Bool :=
  [0,1,2,3,4,5,6,16,48,42,50,45,61,191,192,114,113,117,130,131,132,126,37,60,7,32,56,62,194,118,127,104,101].contains id

def careAboutIes : UInt64 :=
  (1 <<< eidCountry.toUInt64) ||| (1 <<< eidErpInfo.toUInt64) ||| (1 <<< eidChannelSwitch.toUInt64) |||
    (1 <<< eidPwrConstraint.toUInt64) ||| (1 <<< eidHtCapability.toUInt64) ||| (1 <<< eidHtOperation.toUInt64) |||
    (1 <<< eidExtChanswitchAnn.toUInt64)

def careAbout (id : UInt8) : Bool := id < 64 && careAboutIes &&& (1 <<< id.toUInt64) != 0

def microsoft (data : List UInt8) : Bool := 4 ≤ data.length && data.take 3 = [0x00,0x50,0xf2]
def dtpc (data : List UInt8) : Bool := data.length = 6 && data.take 4 = [0x00,0x40,0x96,0x00]

def hashed (id : UInt8) (data : List UInt8) : Bool :=
  careAbout id || id = eidVendorSpecific && microsoft data || id = eidCiscoVendorSpecific && dtpc data

-- none if parsing an element fails. findIe is cfg80211_find_ie.
def found (findIe : UInt8 → List UInt8 → Option (List UInt8)) (id : UInt8) (data : List UInt8) : Option (Elems → Elems) :=
  let elen := data.length
  if id = eidTim then if 4 ≤ elen then some fun elems => {elems with tim := some data} else none
  else if id = eidVendorSpecific then
    if microsoft data && 5 ≤ elen && data.getD 3 0 = 2 && data.getD 4 0 = 1 then some fun elems => {elems with wmmParam := some data}
    else some fun elems => elems
  else if id = eidErpInfo then if 1 ≤ elen then some fun elems => {elems with erpInfo := some data} else none
  else if id = eidHtCapability then if 26 ≤ elen then some fun elems => {elems with htCapElem := some data} else none
  else if id = eidHtOperation then if 22 ≤ elen then some fun elems => {elems with htOperation := some data} else none
  else if id = eidVhtOperation then if 5 ≤ elen then some fun elems => {elems with vhtOperation := some data} else none
  else if id = eidOpmodeNotif then if 0 < elen then some fun elems => {elems with opmodeNotif := some data} else none
  else if id = eidChannelSwitch then if elen = 3 then some fun elems => {elems with chSwitchIe := some data} else none
  else if id = eidExtChanswitchAnn then if elen = 4 then some fun elems => {elems with extChanswIe := some data} else none
  else if id = eidSecondaryChannelOffset then if elen = 1 then some fun elems => {elems with secChanOffs := some data} else none
  else if id = eidChanSwitchParam then if elen = 6 then some fun elems => {elems with meshChanswParamsIe := some data} else none
  else if id = eidWideBwChannelSwitch then none
  else if id = eidChannelSwitchWrapper then
    match findIe eidWideBwChannelSwitch data with
    | none => some fun elems => elems
    | some ie => if ie.length = 3 then some fun elems => {elems with wideBwChanswIe := some ie} else none
  else if id = eidCountry then some fun elems => {elems with countryElem := some data}
  else if id = eidPwrConstraint then if elen = 1 then some fun elems => {elems with pwrConstrElem := some data} else none
  else if id = eidCiscoVendorSpecific then
    if elen < 4 then none
    else if data.take 4 ≠ [0x00,0x40,0x96,0x00] then some fun elems => elems
    else if elen ≠ 6 then none
    else some fun elems => {elems with ciscoDtpcElem := some data}
  else some fun elems => elems

-- covered are the elements that went into the checksum, in their order.
structure Walk where
  seen : List UInt8
  elems : Elems
  covered : List (UInt8 × List UInt8)

def parseElem (findIe : UInt8 → List UInt8 → Option (List UInt8)) (w : Walk) (e : UInt8 × List UInt8) : Walk :=
  if once e.1 && w.seen.contains e.1 then w
  else
    let covered := if hashed e.1 e.2 then w.covered ++ [e] else w.covered
    match found findIe e.1 e.2 with
    | none => {w with covered := covered}
    | some put => ⟨e.1 :: w.seen,put w.elems,covered⟩

def startWalk : Walk := ⟨[],noElems,[]⟩

def parseWalk (findIe : UInt8 → List UInt8 → Option (List UInt8)) (ies : List UInt8) : Walk :=
  (Tlv.elements ies.length ies).foldl (parseElem findIe) startWalk

def crcBit (crc : UInt32) : UInt32 := if crc &&& 0x80000000 != 0 then (crc <<< 1) ^^^ 0x04c11db7 else crc <<< 1
def crcByte (crc : UInt32) (b : UInt8) : UInt32 := crcBit (crcBit (crcBit (crcBit (crcBit (crcBit (crcBit (crcBit (crc ^^^ (b.toUInt32 <<< 24)))))))))
def crc32Be (crc : UInt32) (bytes : List UInt8) : UInt32 := bytes.foldl crcByte crc

def parseElemsCrc (findIe : UInt8 → List UInt8 → Option (List UInt8)) (ies : List UInt8) (crc : UInt32) : Elems × UInt32 :=
  let w := parseWalk findIe ies
  (w.elems,w.covered.foldl (fun crc e => crc32Be crc (Tlv.encode e)) crc)

-- getChannel gives only channels that are not disabled, getP2pAttr the index of a notice of absence;
-- switchesWithContexts: channel contexts are no obstacle to a switch; gMode: the rates of 802.11g.
structure Radio where
  cfg : Cfg80211
  sband : Sband
  findIe : UInt8 → List UInt8 → Option (List UInt8)
  getP2pAttr : List UInt8 → Option UInt8
  operatingClassToBand : UInt8 → Option Nat
  getChannel : Nat → Option Channel
  frequencyToChannel : Nat → Nat
  maxPower : Chandef → Int
  p2p : Bool
  confTx : Bool
  queues : Nat
  uapsdQueues : UInt8
  switchesWithContexts : Bool
  gMode : Bool
  userPowerLevel : Option Int

structure Answers where
  scanning : Bool
  ctx : Chanctx
  preChannelSwitch : Chandef → Bool
  reserve : Chandef → Bool
  postChannelSwitch : Bool

def le16 (b : UInt8 × UInt8) : UInt16 := b.1.toUInt16 ||| (b.2.toUInt16 <<< 8)

structure Erp where
  useCtsProt : Bool
  useShortPreamble : Bool
  useShortSlot : Bool

def handleBssCapability (band : Nat) (capab : UInt16) (erp : Option (List UInt8)) : Erp where
  useCtsProt := erp.any fun data => data.getD 0 0 &&& 0x02 != 0
  useShortPreamble := match erp with
    | some data => data.getD 0 0 &&& 0x04 = 0
    | none => capab &&& 0x0020 != 0
  useShortSlot := capab &&& 0x0400 != 0 || band = 1

structure TxParams where
  aifs : Nat
  cwMax : Nat
  cwMin : Nat
  txop : Nat
  acm : Bool
  uapsd : Bool

structure Wmm where
  lastParamSet : Option UInt8
  wmmAcm : UInt8
  txConf : List TxParams
  qos : Bool

def ecw2cw (ecw : UInt8) : Nat := 2 ^ ecw.toNat - 1

def acOf (aci : UInt8) : Nat × UInt8 × UInt8 :=
  if aci = 1 then (3,0x06,0x04)
  else if aci = 2 then (1,0x30,0x02)
  else if aci = 3 then (0,0xc0,0x01)
  else (2,0x09,0x08)

def acParams (uapsdQueues : UInt8) : List UInt8 → Wmm → Wmm
  | a :: b :: c :: d :: rest,w =>
    let (queue,bits,qosInfo) := acOf ((a >>> 5) &&& 0x03)
    let acm := (a >>> 4) &&& 0x01 != 0
    let params : TxParams := ⟨(a &&& 0x0f).toNat,ecw2cw (b >>> 4),ecw2cw (b &&& 0x0f),(le16 (c,d)).toNat,acm,uapsdQueues &&& qosInfo != 0⟩
    acParams uapsdQueues rest {w with
      wmmAcm := if acm then w.wmmAcm ||| bits else w.wmmAcm
      txConf := w.txConf.set queue params}
  | _,w => w

def staWmmParams (r : Radio) (wmmParam : Option (List UInt8)) (w : Wmm) : Wmm :=
  if !r.confTx || r.queues < 4 then w
  else
    match wmmParam with
    | none => w
    | some param =>
      if param.length < 8 || param.getD 5 0 != 1 then w
      else
        let count := param.getD 6 0 &&& 0x0f
        if w.lastParamSet = some count then w
        else {acParams r.uapsdQueues (param.drop 8) {w with lastParamSet := some count,wmmAcm := 0} with qos := true}

def setWmmDefault (r : Radio) (band : Nat) (w : Wmm) : Wmm :=
  if !r.confTx || r.queues < 4 then w
  else {w with
    txConf := List.replicate 4 ⟨2,1023,if band = 0 && !r.gMode then 31 else 15,0,false,false⟩
    qos := false}

structure Power where
  apPowerLevel : Option Int
  txpower : Int

def s8 (b : UInt8) : Int := if b < 128 then b.toNat else (b.toNat : Int) - 256

def chanPwr (chan increment : Nat) : List UInt8 → Option Int
  | first :: num :: power :: rest =>
    if first < 201 && (List.range num.toNat).any fun i => first.toNat + i * increment = chan then some (s8 power)
    else chanPwr chan increment rest
  | _ => none

def find80211hPwrConstr (r : Radio) (channel : Channel) (country : List UInt8) (pwrConstr : Option (List UInt8)) : Option Int :=
  if country.length % 2 = 1 || country.length < 6 then none
  else
    (chanPwr (r.frequencyToChannel channel.centerFreq) (if channel.band = 1 then 4 else 1) (country.drop 3)).map fun chanPwr =>
      max 0 (chanPwr - ((pwrConstr.map fun data => (data.getD 0 0).toNat).getD 0 : Nat))

def newApLevel (r : Radio) (channel : Channel) (capab : UInt16) (country pwrConstr ciscoDtpc : Option (List UInt8)) : Option Int :=
  let has80211h := (country.filter fun _ => capab &&& 0x0100 != 0 || capab &&& 0x1000 != 0).bind fun country =>
    find80211hPwrConstr r channel country pwrConstr
  let hasCisco := ciscoDtpc.map fun data => s8 (data.getD 4 0)
  match has80211h,hasCisco with
  | none,cisco => cisco
  | some level,none => some level
  | some level,some cisco => some (if level ≤ cisco then level else cisco)

def handlePwrConstr (r : Radio) (channel : Channel) (capab : UInt16) (elems : Elems) (power : Int) (p : Power) : Power :=
  match newApLevel r channel capab elems.countryElem elems.pwrConstrElem elems.ciscoDtpcElem with
  | none => p
  | some level =>
    if p.apPowerLevel = some level then p
    else
      let power := match r.userPowerLevel with
        | none => power
        | some user => min power user
      ⟨some level,min power level⟩

def opmodeNss (opmodeNotif : Option (List UInt8)) : Option Nat :=
  opmodeNotif.bind fun data =>
    let opmode := data.getD 0 0
    if opmode &&& 0x80 != 0 then none else some (((opmode &&& 0x70) >>> 4).toNat + 1)

structure CsaIe where
  chandef : Chandef
  mode : UInt8
  count : UInt8

inductive Parsed where
  | nothing
  | bad
  | switch (csaIe : CsaIe)

-- cfg80211_chandef_create for a secondary channel offset; widths of 5 and 10 MHz are kept.
def csaChandef (channel : Channel) (offset : Option UInt8) (width : Width) : Chandef :=
  match offset with
  | some offset =>
    if offset = 1 then {noHtChandef channel with width := .w40,centerFreq1 := u32 (channel.centerFreq + 10)}
    else if offset = 3 then {noHtChandef channel with width := .w40,centerFreq1 := u32 (channel.centerFreq - 10)}
    else {noHtChandef channel with width := .w20}
  | none => {noHtChandef channel with width := if width = .w5 ∨ width = .w10 then width else .noHt20}

def wideChandef (r : Radio) (channel : Channel) (band : Nat) (data : List UInt8) : Option Chandef :=
  let c := {noHtChandef channel with centerFreq1 := r.cfg.channelToFrequency (data.getD 1 0).toNat band}
  if data.getD 0 0 = 1 then some {c with width := .w80}
  else if data.getD 0 0 = 2 then some {c with width := .w160}
  else if data.getD 0 0 = 3 then some {c with
    width := .w80p80
    centerFreq2 := r.cfg.channelToFrequency (data.getD 2 0).toNat band}
  else none

def restrictWide (flags : StaFlags) (c : Chandef) : Chandef :=
  let out := Mlme.restrict (flags.disable80p80MHz && c.width = .w80p80) (c,noFlags)
  let out := Mlme.restrict (flags.disable160MHz && out.1.width = .w160) out
  (Mlme.restrict (flags.disable40MHz && Mlme.wider20 out.1.width) out).1

-- Band, channel number, count and mode; the inner none is an operating class that is not understood.
def announced (r : Radio) (elems : Elems) (currentBand : Nat) : Option (Option (Nat × UInt8 × UInt8 × UInt8)) :=
  match elems.extChanswIe,elems.chSwitchIe with
  | some e,_ => some ((r.operatingClassToBand (e.getD 1 0)).map fun band => (band,e.getD 2 0,e.getD 3 0,e.getD 0 0))
  | none,some e => some (some (currentBand,e.getD 1 0,e.getD 2 0,e.getD 0 0))
  | none,none => none

def parseChSwitchIe (r : Radio) (elems : Elems) (currentBand : Nat) (flags : StaFlags) (width : Width) : Parsed :=
  let narrow := flags.disableHt || flags.disable40MHz
  let secChanOffs := if narrow then none else elems.secChanOffs
  let wideBw := if narrow || flags.disableVht then none else elems.wideBwChanswIe
  match announced r elems currentBand with
  | none => .nothing
  | some none => .bad
  | some (some (band,chan,count,mode)) =>
    let mode := (elems.meshChanswParamsIe.map fun data => data.getD 1 0).getD mode
    match r.getChannel (r.cfg.channelToFrequency chan.toNat band) with
    | none => .bad
    | some channel =>
      let offset := match secChanOffs with
        | some data => some (data.getD 0 0)
        | none => if flags.disableHt then none else some 0
      let chandef := csaChandef channel offset width
      match (wideBw.bind fun data => wideChandef r channel band data).map (restrictWide flags) with
      | none => .switch ⟨chandef,mode,count⟩
      | some wide => if (r.cfg.compatible wide chandef).isNone then .bad else .switch ⟨wide,mode,count⟩

-- dropWork: csa_connection_drop_work is queued. switchIn: the count the switch was handed over with.
structure Csa where
  csaActive : Bool
  csaChandef : Option Chandef
  csaBlockTx : Bool
  csaIgnoredSameChan : Bool
  csaWaitingBcn : Bool
  switchIn : Option UInt8
  dropWork : Bool

def accepts (r : Radio) (a : Answers) (chandef : Chandef) : Bool :=
  r.switchesWithContexts && a.preChannelSwitch chandef && a.reserve chandef

def staProcessChanswitch (r : Radio) (a : Answers) (elems : Elems) (currentBand : Nat) (l : Link) (csa : Csa) : Csa :=
  if a.scanning then csa
  else if csa.csaActive then csa
  else
    match parseChSwitchIe r elems currentBand l.flags l.chandef.width with
    | .nothing => csa
    | .bad => {csa with dropWork := true}
    | .switch csaIe =>
      if !r.cfg.usable csaIe.chandef true then {csa with dropWork := true}
      else if csaIe.chandef = l.chandef then {csa with csaIgnoredSameChan := true}
      else if !accepts r a csaIe.chandef then {csa with dropWork := true}
      else {csa with
        csaActive := true
        csaChandef := some csaIe.chandef
        csaBlockTx := csaIe.mode != 0
        csaIgnoredSameChan := false
        switchIn := some csaIe.count}

def chswitchPostBeacon (a : Answers) (csa : Csa) : Csa := {csa with
  csaBlockTx := false
  csaActive := false
  csaWaitingBcn := false
  dropWork := csa.dropWork || !a.postChannelSwitch}

end Mac80211.BeaconRx

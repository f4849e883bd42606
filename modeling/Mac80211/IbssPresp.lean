import Mac80211.Chanctx
import Mac80211.Tkip

namespace Mac80211.Ibss
open Chan (Chandef Width)
open Tkip (putLe16 putLe32)

-- struct ieee80211_rate; a bitrate counts 100 kbps.
structure Rate where
  flags : UInt32
  bitrate : UInt16
deriving DecidableEq

structure Mcs where
  rxMask : Vector UInt8 10
  rest : Vector UInt8 6

structure HtCap where
  htSupported : Bool
  cap : UInt16
  ampduFactor : UInt8
  ampduDensity : UInt8
  mcs : Mcs

-- struct ieee80211_ht_cap, as far as overrides read it.
structure HtCapa where
  capInfo : UInt16
  ampduParamsInfo : UInt8
  rxMask : Vector UInt8 10

structure VhtCap where
  vhtSupported : Bool
  cap : UInt32
  vhtMcs : Vector UInt8 8

structure SupportedBand where
  is2GHz : Bool
  bitrates : List Rate
  htCap : HtCap
  vhtCap : VhtCap

structure Channel where
  chan : Nat
  band : Nat
  centerFreq : Nat

inductive ChannelType where
  | noHt | ht20 | ht40Minus | ht40Plus
deriving DecidableEq

-- The functions of cfg80211 only look at their arguments: flags a width asks of a rate, channel numbers,
-- definitions.
structure Hw where
  addr : EthAddr
  bands : Nat → SupportedBand
  queues : Nat
  rateFlags : Width → UInt32
  frequencyToChannel : Nat → UInt8
  chandefCreate : Channel → ChannelType → Chandef
  getChandefType : Chandef → ChannelType

structure CsaSettings where
  blockTx : Bool
  chandef : Chandef
  count : UInt8

def eidSsid : UInt8 := 0
def eidSuppRates : UInt8 := 1
def eidDsParams : UInt8 := 3
def eidIbssParams : UInt8 := 6
def eidChannelSwitch : UInt8 := 37
def eidHtCapability : UInt8 := 45
def eidExtSuppRates : UInt8 := 50
def eidHtOperation : UInt8 := 61
def eidVhtCapability : UInt8 := 191
def eidVhtOperation : UInt8 := 192
def eidVendorSpecific : UInt8 := 221

def htCapLdpcCoding : UInt16 := 0x0001
def htCapSupWidth2040 : UInt16 := 0x0002
def htCapSgi20 : UInt16 := 0x0020
def htCapSgi40 : UInt16 := 0x0040
def htCapMaxAmsdu : UInt16 := 0x0800
def htCap40MhzIntolerant : UInt16 := 0x4000
def htAmpduParmFactor : UInt8 := 0x03
def htAmpduParmDensity : UInt8 := 0x1c

def putLe64 (v : UInt64) : List UInt8 := putLe32 v.toUInt32 ++ putLe32 (v >>> 32).toUInt32

def chandefGetShift (chandef : Chandef) : Nat :=
  match chandef.width with
  | .w5 => 2
  | .w10 => 1
  | _ => 0

def checkHtcapDisable (capa mask : HtCapa) (flag cap : UInt16) : UInt16 :=
  if mask.capInfo &&& flag != 0 && capa.capInfo &&& flag == 0 then cap &&& ~~~flag else cap

def checkHtcapEnable (capa mask : HtCapa) (flag cap : UInt16) : UInt16 :=
  if mask.capInfo &&& flag != 0 && capa.capInfo &&& flag != 0 then cap ||| flag else cap

def applyHtcapOverrides (capa mask : HtCapa) (htCap : HtCap) : HtCap :=
  if !htCap.htSupported then htCap
  else
    let rxMask := Vector.zipWith (fun mcs mask => mcs &&& ~~~mask) htCap.mcs.rxMask mask.rxMask
    let cap := checkHtcapDisable capa mask htCapSupWidth2040 htCap.cap
    let cap := checkHtcapDisable capa mask htCapSgi40 cap
    let cap := checkHtcapDisable capa mask htCapSgi20 cap
    let cap := checkHtcapDisable capa mask htCapMaxAmsdu cap
    let cap := checkHtcapDisable capa mask htCapLdpcCoding cap
    let factor := capa.ampduParamsInfo &&& htAmpduParmFactor
    let density := (capa.ampduParamsInfo &&& htAmpduParmDensity) >>> 2
    {htCap with
      mcs := ⟨Vector.zipWith (· ||| ·) rxMask (Vector.zipWith (· &&& ·) mask.rxMask capa.rxMask),htCap.mcs.rest⟩
      cap := checkHtcapEnable capa mask htCap40MhzIntolerant cap
      ampduFactor := if mask.ampduParamsInfo &&& htAmpduParmFactor != 0 && factor < htCap.ampduFactor then factor else htCap.ampduFactor
      ampduDensity := if mask.ampduParamsInfo &&& htAmpduParmDensity != 0 && density > htCap.ampduDensity then density else htCap.ampduDensity}

def ieBuildHtCap (htCap : HtCap) (cap : UInt16) : List UInt8 :=
  [eidHtCapability,26] ++ putLe16 cap ++ [htCap.ampduFactor ||| (htCap.ampduDensity <<< 2)] ++
    htCap.mcs.rxMask.toList ++ htCap.mcs.rest.toList ++ List.replicate 7 0

def ieBuildVhtCap (vhtCap : VhtCap) (cap : UInt32) : List UInt8 :=
  [eidVhtCapability,12] ++ putLe32 cap ++ vhtCap.vhtMcs.toList

def htParam (htCap : HtCap) (chandef : Chandef) : UInt8 :=
  let secondary : UInt8 := match chandef.width with
    | .w160 | .w80p80 | .w80 | .w40 => if chandef.centerFreq1 > chandef.centerFreq then 1 else 3
    | _ => 0
  if htCap.cap &&& htCapSupWidth2040 != 0 && chandef.width != .noHt20 && chandef.width != .w20 then secondary ||| 4 else secondary

section presp
variable (hw : Hw)

def ieBuildHtOper (htCap : HtCap) (chandef : Chandef) (protMode : UInt16) : List UInt8 :=
  [eidHtOperation,22,hw.frequencyToChannel chandef.centerFreq,htParam htCap chandef] ++ putLe16 protMode ++ [0,0] ++
    htCap.mcs.rxMask.toList ++ List.replicate 6 0

def ieBuildVhtOper (chandef : Chandef) : List UInt8 :=
  let width : UInt8 := match chandef.width with
    | .w160 => 2
    | .w80p80 => 3
    | .w80 => 1
    | _ => 0
  [eidVhtOperation,5,width,hw.frequencyToChannel chandef.centerFreq1,
    if chandef.centerFreq2 ≠ 0 then hw.frequencyToChannel chandef.centerFreq2 else 0] ++ putLe16 0xffff

def addWmmInfoIe (qosinfo : UInt8) : List UInt8 := [eidVendorSpecific,7,0x00,0x50,0xf2,2,0,1,qosinfo]

-- What comes before the elements of user space, these elements, and what comes after.
structure Presp where
  before : List UInt8
  extra : List UInt8
  after : List UInt8
  csaCounterOffset : Option Nat

def Presp.head (presp : Presp) : List UInt8 := presp.before ++ presp.extra ++ presp.after

def usableRates (chandef : Chandef) : List (Rate × Nat) :=
  let flags := hw.rateFlags chandef.width
  (hw.bands chandef.band).bitrates.zipIdx.filter fun (rate,_) => flags &&& rate.flags == flags

def rateByte (basicRates : UInt32) (shift : Nat) (rate : Rate × Nat) : UInt8 :=
  let units := 5 * 2 ^ shift
  (if basicRates.toNat.testBit rate.2 then 0x80 else 0) ||| UInt8.ofNat ((rate.1.bitrate.toNat + units - 1) / units)

structure Announced where
  bssid : EthAddr
  ssid : List UInt8
  beaconInt : UInt16
  basicRates : UInt32
  capability : UInt16
  tsf : UInt64
  chandef : Chandef

def fixedPart (a : Announced) : List UInt8 :=
  putLe16 0x0050 ++ [0,0] ++ List.replicate 6 0xff ++ hw.addr.toList ++ a.bssid.toList ++ [0,0] ++
    putLe64 a.tsf ++ putLe16 a.beaconInt ++ putLe16 a.capability

def ssidElement (a : Announced) : List UInt8 := [eidSsid,UInt8.ofNat a.ssid.length] ++ a.ssid

def rateElements (a : Announced) : List UInt8 × List UInt8 :=
  let rates := (usableRates hw a.chandef).map (rateByte a.basicRates (chandefGetShift a.chandef))
  ([eidSuppRates,UInt8.ofNat (min 8 rates.length)] ++ rates.take 8,
    if rates.length > 8 then [eidExtSuppRates,UInt8.ofNat (rates.length - 8)] ++ rates.drop 8 else [])

def dsParams (a : Announced) : List UInt8 :=
  if (hw.bands a.chandef.band).is2GHz then [eidDsParams,1,hw.frequencyToChannel a.chandef.centerFreq] else []

def ibssParams : List UInt8 := [eidIbssParams,2,0,0]

def csaElement : Option CsaSettings → List UInt8
  | some csa => [eidChannelSwitch,3,if csa.blockTx then 1 else 0,hw.frequencyToChannel csa.chandef.centerFreq,csa.count]
  | none => []

def htElements (capa mask : HtCapa) (a : Announced) : List UInt8 :=
  let sband := hw.bands a.chandef.band
  let narrow := a.chandef.width == .noHt20 || a.chandef.width == .w5 || a.chandef.width == .w10
  if !narrow && sband.htCap.htSupported then
    let htCap := applyHtcapOverrides capa mask sband.htCap
    ieBuildHtCap htCap htCap.cap ++ ieBuildHtOper hw sband.htCap a.chandef 0 ++
      if a.chandef.width != .w20 && a.chandef.width != .w40 && sband.vhtCap.vhtSupported then
        ieBuildVhtCap sband.vhtCap sband.vhtCap.cap ++ ieBuildVhtOper hw a.chandef
      else []
  else []

def frameLen (ieLen : UInt8) : Nat := 24 + 12 + (2 + 32) + (2 + 8) + 3 + 4 + 5 + (2 + (32 - 8)) + (2 + 26) + (2 + 22) + ieLen.toNat

def ibssPresp (capa mask : HtCapa) (a : Announced) (extra : List UInt8) (csa : Option CsaSettings) : Presp :=
  let rates := rateElements hw a
  let start := fixedPart hw a ++ ssidElement a ++ rates.1 ++ dsParams hw a ++ ibssParams
  ⟨start ++ csaElement hw csa ++ rates.2,extra,
    htElements hw capa mask a ++ if hw.queues ≥ 4 then addWmmInfoIe 0 else [],
    csa.map fun _ => start.length + 4⟩

-- alloc: whether there is memory.
def ibssBuildPresp (capa mask : HtCapa) (a : Announced) (ieLen : UInt8) (extra : List UInt8) (csa : Option CsaSettings) (alloc : Bool) :
    Option Presp :=
  let presp := ibssPresp hw capa mask a extra csa
  if alloc && decide (presp.head.length ≤ frameLen ieLen) then some presp else none

variable {hw : Hw}

theorem ibssBuildPresp_extra (built : ibssBuildPresp hw capa mask a ieLen extra csa alloc = some presp) : presp.extra = extra := by
  obtain ⟨-,same⟩ := Option.ite_none_right_eq_some.mp built
  cases Option.some.inj same
  rfl

theorem ibssBuildPresp_none : ibssBuildPresp hw capa mask a ieLen extra csa alloc = none ↔
      ¬(alloc = true ∧ (ibssPresp hw capa mask a extra csa).head.length ≤ frameLen ieLen) := by
  simp [ibssBuildPresp]

end presp

end Mac80211.Ibss

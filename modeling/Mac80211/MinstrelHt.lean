import Mathlib.Tactic.Common
import Mathlib.Algebra.Ring.Nat
import Mathlib.Algebra.Ring.Int.Defs

namespace Mac80211.MinstrelHt

def u8 (x : Nat) : Nat := x % 256
def u16 (x : Nat) : Nat := x % 65536
def u32 (x : Int) : Nat := (x % 4294967296).toNat
def s32 (x : Int) : Int := (2147483648 + x) % 4294967296 - 2147483648

def maxThrRates : Nat := 4
def maxStreams : Nat := 3
def cckGroup : Nat := 12
def vhtGroup0 : Nat := 13

-- The build, the module parameter and the part of minstrel_priv that is read.
structure Priv where
  vht : Bool
  vhtOnly : Bool
  hasMrr : Bool
  maxRates : Nat
  cckRates : Nat → Int

def Priv.groupRates (mp : Priv) : Nat := if mp.vht then 10 else 8
def Priv.groupsNb (mp : Priv) : Nat := if mp.vht then 31 else 13

def minstrelFrac (val div : Nat) : Nat := u32 (65536 * val) / div
def minstrelTrunc (val : Nat) : Nat := val / 65536

inductive Bw where
  | bw20 | bw40 | bw80
deriving DecidableEq

-- The order of GROUP_IDX and VHT_GROUP_IDX: bandwidth, guard interval, streams.
def place (group : Nat) : Nat := if group < cckGroup then group else group - vhtGroup0
def streams (group : Nat) : Nat := if group = cckGroup then 0 else place group % maxStreams + 1
def shortGi (group : Nat) : Bool := group != cckGroup && place group / maxStreams % 2 == 1
def bandwidth (group : Nat) : Bw :=
  if group = cckGroup then .bw20
  else
    match place group / (2 * maxStreams) with
    | 0 => .bw20
    | 1 => .bw40
    | _ => .bw80

def bitsPerSymbol (bw : Bw) : List Nat :=
  match bw with
  | .bw20 => [26,52,78,104,156,208,234,260,312,346]
  | .bw40 => [54,108,162,216,324,432,486,540,648,720]
  | .bw80 => [117,234,351,468,702,936,1053,1170,1404,1560]

def mcsDuration (streams : Nat) (sgi : Bool) (bps : Nat) : Nat :=
  let syms := (153599 + streams * bps) / (streams * bps)
  (if sgi then (4000 + 18000 * syms) / 5 else 4 * (1000 * syms)) / 16

def cckDuration (bitrate : Nat) (short : Bool) (len : Nat) : Nat :=
  1000 * (10 + (if short then 96 else 192) + 10 * (8 * (len + 4)) / bitrate)

def cckAckDuration (bitrate : Nat) (short : Bool) : Nat :=
  cckDuration (if bitrate > 10 then 20 else 10) false 60 + cckDuration bitrate short 1200

def duration (group rate : Nat) : Nat :=
  if group = cckGroup then
    if rate < 8 then cckAckDuration ([10,20,55,110].getD (rate % 4) 0) (decide (4 ≤ rate)) else 0
  else if group < cckGroup ∧ 8 ≤ rate then 0
  else mcsDuration (streams group) (shortGi group) ((bitsPerSymbol (bandwidth group)).getD rate 0)

structure RateStats where
  attempts : Nat
  success : Nat
  attHist : Nat
  probEwma : Nat
  sampleSkipped : Nat
  retryUpdated : Bool

structure McsGroupData where
  supported : Nat
  maxGroupTpRate : List Nat
  maxGroupProbRate : Nat
  rates : Nat → RateStats

structure Sta where
  ampduLen : Nat
  ampduPackets : Nat
  avgAmpduLen : Nat
  maxTpRate : List Nat
  maxProbRate : Nat
  overhead : Nat
  samplePackets : Nat
  sampleWait : Nat
  sampleTries : Nat
  sampleCount : Nat
  sampleSlow : Nat
  groups : Nat → McsGroupData

def Sta.setGroup (mi : Sta) (group : Nat) (mg : McsGroupData) : Sta := {mi with groups := Function.update mi.groups group mg}

def McsGroupData.setRate (mg : McsGroupData) (i : Nat) (mrs : RateStats) : McsGroupData :=
  {mg with rates := Function.update mg.rates i mrs}

def minstrelEwma (old new weight : Int) : Int := s32 (old + Int.tdiv (s32 ((128 - weight) * s32 (new - old))) 128)

def calcRateStats (mrs : RateStats) : RateStats :=
  if mrs.attempts > 0 then
    let curProb := u32 (Int.tdiv (s32 (65536 * mrs.success)) mrs.attempts)
    let probEwma := if mrs.attHist = 0 then curProb else u32 (minstrelEwma (s32 mrs.probEwma) (s32 curProb) 96)
    {mrs with
      attempts := 0,
      success := 0,
      attHist := (mrs.attHist + mrs.attempts) % 18446744073709551616,
      probEwma := probEwma,
      sampleSkipped := 0}
  else {mrs with attempts := 0,success := 0,sampleSkipped := u8 (mrs.sampleSkipped + 1)}

def Sta.tpAvg (mi : Sta) (group rate : Nat) (prob : Int) : Int :=
  if prob < minstrelFrac 10 100 then 0
  else
    let nsecs := u32 ((if group ≠ cckGroup then u32 (1000 * mi.overhead) / minstrelTrunc mi.avgAmpduLen else 0) + duration group rate)
    let limited := if prob > minstrelFrac 90 100 then (minstrelFrac 90 100 : Int) else prob
    minstrelTrunc (u32 (100000 * (u32 (1000 * limited) / nsecs : Nat)))

def Sta.prob (mi : Sta) (mp : Priv) (index : Nat) : Int :=
  s32 ((mi.groups (index / mp.groupRates)).rates (index % mp.groupRates)).probEwma

def Sta.tp (mi : Sta) (mp : Priv) (index : Nat) : Int := mi.tpAvg (index / mp.groupRates) (index % mp.groupRates) (mi.prob mp index)

def sortScan (mi : Sta) (mp : Priv) (index : Nat) (tpList : List Nat) : Nat → Nat
  | 0 => 0
  | j + 1 =>
    let tmp := tpList.getD j 0
    if mi.tp mp index < mi.tp mp tmp ∨ mi.tp mp index = mi.tp mp tmp ∧ mi.prob mp index ≤ mi.prob mp tmp then j + 1
    else sortScan mi mp index tpList j

def sortBestTpRates (mi : Sta) (mp : Priv) (index : Nat) (tpList : List Nat) : List Nat :=
  let j := sortScan mi mp index tpList maxThrRates
  if j < maxThrRates then (tpList.take j ++ index :: tpList.drop j).take maxThrRates else tpList

-- A best rate is looked up in mg->rates by its whole index. Behind the array is no statistics of the group.
def strayProb (mp : Priv) (mg : McsGroupData) (stray : Nat → Nat) (index : Nat) : Nat :=
  if index < mp.groupRates then (mg.rates index).probEwma else stray index

def setBestProbRate (mi : Sta) (mp : Priv) (stray : Nat → Nat) (index : Nat) : Sta :=
  let group := index / mp.groupRates
  let mg := mi.groups group
  let mrs := mg.rates (index % mp.groupRates)
  if group = cckGroup ∧ mi.maxTpRate.getD 0 0 / mp.groupRates ≠ cckGroup then mi
  else if mrs.probEwma > minstrelFrac 75 100 then
    let mi' := if mi.tp mp index > mi.tp mp mi.maxProbRate then {mi with maxProbRate := index} else mi
    if mi.tp mp index > mi.tp mp mg.maxGroupProbRate then mi'.setGroup group {mg with maxGroupProbRate := index} else mi'
  else
    let mi' := if (mrs.probEwma : Int) > u32 (mi.prob mp mi.maxProbRate) then {mi with maxProbRate := index} else mi
    if mrs.probEwma > strayProb mp mg stray mg.maxGroupProbRate then mi'.setGroup group {mg with maxGroupProbRate := index} else mi'

def assignBestTpRates (mi : Sta) (mp : Priv) (mcs cck : List Nat) : List Nat :=
  if u32 (mi.tp mp (cck.getD 0 0)) > u32 (mi.tp mp (mcs.getD 0 0)) then
    cck.foldl (fun mcs index => sortBestTpRates mi mp index mcs) mcs
  else mcs

def reduceStep (mp : Priv) (tmpMaxStreams : Nat) (acc : Sta × Int) (group : Nat) : Sta × Int :=
  let mi := acc.1
  let mg := mi.groups group
  if mg.supported = 0 ∨ group = cckGroup then acc
  else
    let tmpIdx := mg.maxGroupProbRate % mp.groupRates
    let tp := mi.tpAvg group tmpIdx (s32 (mg.rates tmpIdx).probEwma)
    if acc.2 < tp ∧ streams group < tmpMaxStreams then ({mi with maxProbRate := mg.maxGroupProbRate},tp) else acc

def probRateReduceStreams (mi : Sta) (mp : Priv) : Sta :=
  ((List.range mp.groupsNb).foldl (reduceStep mp (streams (mi.maxTpRate.getD 0 0 / mp.groupRates))) (mi,0)).1

structure Lists where
  mcs : List Nat
  cck : List Nat
  group : List Nat

def countedRate (mi : Sta) (group i : Nat) : Sta :=
  let mg := mi.groups group
  mi.setGroup group (mg.setRate i (calcRateStats {mg.rates i with retryUpdated := false}))

def listRate (mi : Sta) (mp : Priv) (group index : Nat) (lists : Lists) : Lists :=
  ⟨if group ≠ cckGroup then sortBestTpRates mi mp index lists.mcs else lists.mcs,
    if group ≠ cckGroup then lists.cck else sortBestTpRates mi mp index lists.cck,
    sortBestTpRates mi mp index lists.group⟩

def updateRate (mp : Priv) (stray : Nat → Nat → Nat) (group : Nat) (acc : Sta × Lists) (i : Nat) : Sta × Lists :=
  if !(acc.1.groups group).supported.testBit i then acc
  else
    let index := mp.groupRates * group + i
    let mi := countedRate acc.1 group i
    if mi.tpAvg group i (s32 ((mi.groups group).rates i).probEwma) = 0 then (mi,acc.2)
    else (setBestProbRate mi mp (stray group) index,listRate mi mp group index acc.2)

def updateGroup (mp : Priv) (stray : Nat → Nat → Nat) (acc : Sta × Lists) (group : Nat) : Sta × Lists :=
  let mi := acc.1
  if (mi.groups group).supported = 0 then acc
  else
    let mi := {mi with sampleCount := u8 (mi.sampleCount + 1)}
    let lists := {acc.2 with group := List.replicate maxThrRates group}
    let out := (List.range mp.groupRates).foldl (updateRate mp stray group) (mi,lists)
    (out.1.setGroup group {out.1.groups group with maxGroupTpRate := out.2.group},out.2)

def averaged (mi : Sta) : Sta :=
  if mi.ampduPackets > 0 then
    {mi with
      avgAmpduLen := u32 (minstrelEwma (s32 mi.avgAmpduLen) (s32 (minstrelFrac mi.ampduLen mi.ampduPackets)) 96),
      ampduLen := 0,
      ampduPackets := 0}
  else mi

def placeholders : Lists := ⟨List.replicate maxThrRates 0,List.replicate maxThrRates 0,[]⟩

def updateStats (mp : Priv) (stray : Nat → Nat → Nat) (mi : Sta) : Sta :=
  let mi := {averaged mi with sampleSlow := 0,sampleCount := 0}
  let out := (List.range mp.groupsNb).foldl (updateGroup mp stray) (mi,placeholders)
  let mi := {out.1 with maxTpRate := assignBestTpRates out.1 mp out.2.mcs out.2.cck}
  let mi := probRateReduceStreams mi mp
  {mi with sampleCount := u8 (8 * mi.sampleCount)}

def downgradeGroup (supported : Nat → Nat) (orig : Nat) : Nat → Option Nat
  | 0 => none
  | group + 1 =>
    if supported group = 0 ∨ streams group > streams orig then downgradeGroup supported orig group else some group

def downgradeRate (mi : Sta) (mp : Priv) (index : Nat) (primary : Bool) : Nat :=
  let orig := index / mp.groupRates
  match downgradeGroup (fun group => (mi.groups group).supported) orig orig with
  | some group => (mi.groups group).maxGroupTpRate.getD (if primary then 0 else 1) 0
  | none => index

structure TxRate where
  idx : Int
  count : Nat
  mcs : Bool
  vhtMcs : Bool
  shortGi : Bool
  width40 : Bool
  width80 : Bool

def txstatValid (mp : Priv) (rate : TxRate) : Bool :=
  if rate.idx < 0 then false
  else if rate.count = 0 then false
  else if rate.mcs || rate.vhtMcs then true
  else rate.idx == mp.cckRates 0 || rate.idx == mp.cckRates 1 || rate.idx == mp.cckRates 2 || rate.idx == mp.cckRates 3

def statsPlace (mp : Priv) (mi : Sta) (rate : TxRate) : Nat × Nat :=
  let idx := rate.idx.toNat
  if rate.mcs then (maxStreams * 2 * rate.width40.toNat + maxStreams * rate.shortGi.toNat + idx / 8,idx % 8)
  else if rate.vhtMcs then
    (vhtGroup0 + maxStreams * 2 * (rate.width40.toNat + 2 * rate.width80.toNat) + maxStreams * rate.shortGi.toNat + idx / 16,idx % 16)
  else
    let i := ((List.range 4).find? fun i => rate.idx == mp.cckRates i).getD 4
    (cckGroup,if (mi.groups cckGroup).supported.testBit i then i else i + 4)

structure TxStatus where
  ctlAmpdu : Bool
  statAmpdu : Bool
  ack : Bool
  probe : Bool
  ampduAckLen : Nat
  ampduLen : Nat
  rates : List TxRate
  late : Bool
  stray : Nat → Nat → Nat

def countRate (mp : Priv) (ackLen ampduLen : Nat) (mi : Sta) (rate : TxRate) (last : Bool) : Sta :=
  let found := statsPlace mp mi rate
  let mg := mi.groups found.1
  let mrs := mg.rates found.2
  let success := if last then u16 (mrs.success + ackLen) else mrs.success
  mi.setGroup found.1 (mg.setRate found.2 {mrs with attempts := u16 (mrs.attempts + rate.count * ampduLen),success := success})

def countRates (mp : Priv) (ackLen ampduLen : Nat) (mi : Sta) : List TxRate → Sta
  | [] => mi
  | rate :: rest =>
    if !txstatValid mp rate then mi
    else
      let last := !(rest.head?.any fun next => txstatValid mp next)
      countRates mp ackLen ampduLen (countRate mp ackLen ampduLen mi rate last) rest

def dying (mi : Sta) (mp : Priv) (index : Nat) : Bool :=
  let mrs := (mi.groups (index / mp.groupRates)).rates (index % mp.groupRates)
  decide (mrs.attempts > 30) && decide (Int.tdiv (s32 (65536 * mrs.success)) mrs.attempts < minstrelFrac 20 100)

def sampled (mi : Sta) : Sta :=
  if mi.sampleWait = 0 ∧ mi.sampleTries = 0 ∧ 0 < mi.sampleCount then
    {mi with sampleWait := u8 (16 + 2 * minstrelTrunc mi.avgAmpduLen),sampleTries := 1,sampleCount := mi.sampleCount - 1}
  else mi

def txStatus (mp : Priv) (mi : Sta) (info : TxStatus) : Sta :=
  if info.ctlAmpdu && !info.statAmpdu then mi
  else
    let ackLen := if info.statAmpdu then info.ampduAckLen else info.ack.toNat
    let len := if info.statAmpdu then info.ampduLen else 1
    let mi := sampled {mi with ampduPackets := u32 (mi.ampduPackets + 1),ampduLen := u32 (mi.ampduLen + len)}
    let mi := if info.probe then {mi with samplePackets := u32 (mi.samplePackets + len)} else mi
    let mi := countRates mp ackLen len mi (info.rates.take 4)
    let mi := if dying mi mp (mi.maxTpRate.getD 0 0) then
        {mi with maxTpRate := mi.maxTpRate.set 0 (downgradeRate mi mp (mi.maxTpRate.getD 0 0) true)}
      else mi
    let mi := if dying mi mp (mi.maxTpRate.getD 1 0) then
        {mi with maxTpRate := mi.maxTpRate.set 1 (downgradeRate mi mp (mi.maxTpRate.getD 1 0) false)}
      else mi
    if info.late then updateStats mp info.stray mi else mi

def updateRates (mp : Priv) (mi : Sta) : List Nat :=
  [mi.maxTpRate.getD 0 0] ++ (if 3 ≤ mp.maxRates then [mi.maxTpRate.getD 1 0] else []) ++
    if 2 ≤ mp.maxRates then [mi.maxProbRate] else []

-- rxMask and txMcsMap are by streams less one, cckSupported by CCK rate.
structure Caps where
  htSupported : Bool
  vhtSupported : Bool
  sgi20 : Bool
  sgi40 : Bool
  sgi80 : Bool
  rxBw40 : Bool
  rxBw80 : Bool
  staticSmps : Bool
  rxMask : Nat → UInt8
  txMcsMap : UInt16
  cckAllowed : Bool
  cckSupported : Nat → Bool
  overhead : Nat

def Caps.useVht (caps : Caps) (mp : Priv) : Bool := mp.vht && caps.vhtSupported && caps.txMcsMap != 0xffff

def validVhtRates (bw : Bw) (nss : Nat) (mcsMap : UInt16) : Nat :=
  let mask := match bw with
    | .bw20 => if nss ≠ 3 ∧ nss ≠ 6 then 1 <<< 9 else 0
    | .bw80 => if nss = 3 ∨ nss = 7 then 1 <<< 6 else if nss = 6 then 1 <<< 9 else 0
    | .bw40 => 0
  let mask := match mcsMap.toNat >>> (2 * (nss - 1)) &&& 3 with
    | 0 => mask ||| 0x300
    | 1 => mask ||| 0x200
    | 2 => mask
    | _ => 0x3ff
  0x3ff - (0x3ff &&& mask)

def cckMask (caps : Caps) : Nat :=
  if !caps.cckAllowed then 0
  else (List.range 4).foldl (fun mask i => if caps.cckSupported i then mask ||| 1 <<< i else mask) 0

def supportedMask (mp : Priv) (caps : Caps) (group : Nat) : Nat :=
  let width40 := decide (bandwidth group = .bw40)
  let width80 := decide (bandwidth group = .bw80)
  let nss := streams group
  if group = cckGroup then cckMask caps
  else if shortGi group && !(if width40 then caps.sgi40 else caps.sgi20) then 0
  else if width40 && !caps.rxBw40 then 0
  else if caps.staticSmps && decide (1 < nss) then 0
  else if group < cckGroup then
    if caps.useVht mp && mp.vhtOnly then 0 else (caps.rxMask (nss - 1)).toNat
  else if !caps.vhtSupported then 0
  else if width80 && (!caps.rxBw80 || (shortGi group && !caps.sgi80)) then 0
  else validVhtRates (bandwidth group) nss caps.txMcsMap

def Caps.usable (caps : Caps) (mp : Priv) : Bool :=
  caps.htSupported && (List.range mp.groupsNb).any fun group => group != cckGroup && supportedMask mp caps group != 0

def noStats : RateStats := ⟨0,0,0,0,0,false⟩

def cleared (mp : Priv) (caps : Caps) : Sta where
  ampduLen := 0
  ampduPackets := 0
  avgAmpduLen := minstrelFrac 1 1
  maxTpRate := List.replicate maxThrRates 0
  maxProbRate := 0
  overhead := caps.overhead
  samplePackets := 0
  sampleWait := if mp.hasMrr then 0 else 8
  sampleTries := 4
  sampleCount := if mp.hasMrr then 16 else 8
  sampleSlow := 0
  groups := fun group => ⟨supportedMask mp caps group,List.replicate maxThrRates 0,0,fun _ => noStats⟩

-- For a station that is not left to the legacy code.
def updateCaps (mp : Priv) (caps : Caps) (stray : Nat → Nat → Nat) : Sta := updateStats mp stray (cleared mp caps)

inductive Reach (mp : Priv) (caps : Caps) : Sta → Prop where
  | init (stray : Nat → Nat → Nat) : Reach mp caps (updateCaps mp caps stray)
  | status (prior : Reach mp caps mi) (info : TxStatus) : Reach mp caps (txStatus mp mi info)

end Mac80211.MinstrelHt

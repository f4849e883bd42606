import Mac80211.Chanctx

namespace Mac80211.Mlme
open Chan (Chandef Width ReplaceState)

inductive Errno where
  | noMem | inval | busy | opNotSupp | exist | notConn | noLink | timedOut
  | driver (err : Nat)
deriving DecidableEq

structure StaFlags where
  disableHt : Bool
  disableVht : Bool
  disable40MHz : Bool
  disable80p80MHz : Bool
  disable160MHz : Bool
  disableWmm : Bool
deriving DecidableEq

def noFlags : StaFlags := ⟨false,false,false,false,false,false⟩
def disableHtVht : StaFlags := ⟨true,true,false,false,false,false⟩
def disableVht : StaFlags := ⟨false,true,false,false,false,false⟩
def disable40 : StaFlags := ⟨false,false,true,false,false,false⟩
def disableVht40 : StaFlags := ⟨false,true,true,false,false,false⟩
def disable160 : StaFlags := ⟨false,false,false,true,true,false⟩

def StaFlags.join (a b : StaFlags) : StaFlags where
  disableHt := a.disableHt || b.disableHt
  disableVht := a.disableVht || b.disableVht
  disable40MHz := a.disable40MHz || b.disable40MHz
  disable80p80MHz := a.disable80p80MHz || b.disable80p80MHz
  disable160MHz := a.disable160MHz || b.disable160MHz
  disableWmm := a.disableWmm || b.disableWmm

structure Channel where
  chan : Nat
  band : Nat
  centerFreq : Nat

-- An element that is too short is not there. capInfo is IEEE80211_HT_CAP_SUP_WIDTH_20_40.
structure HtCap where
  supWidth2040 : Bool

structure HtOperation where
  primaryChan : UInt8
  htParam : UInt8
  operationMode : UInt16

structure VhtOperation where
  chanWidth : UInt8
  centerFreqSeg1Idx : UInt8
  centerFreqSeg2Idx : UInt8

-- And the override of the 40 MHz capability (ht_capa and ht_capa_mask).
structure Sband where
  htSupported : Bool
  supWidth2040 : Bool
  vhtSupported : Bool

structure Overrides where
  capa : Bool
  mask : Bool

-- usable: whether disabled channels are prohibited.
structure Cfg80211 where
  channelToFrequency : Nat → Nat → Nat
  valid : Chandef → Bool
  usable : Chandef → Bool → Bool
  compatible : Chandef → Chandef → Option Chandef

def u32 (n : Int) : Nat := (n % 4294967296).toNat

def chandefDowngrade (c : Chandef) : Chandef × StaFlags :=
  match c.width with
  | .w20 => ({c with width := .noHt20},disableHtVht)
  | .w40 => ({c with width := .w20,centerFreq1 := c.centerFreq},disableVht40)
  | .w80 =>
    let tmp := u32 (30 + c.centerFreq - c.centerFreq1) / 20 / 2
    ({c with centerFreq1 := u32 (c.centerFreq1 - 20 + 40 * tmp),width := .w40},disableVht)
  | .w80p80 => ({c with centerFreq2 := 0,width := .w80},disable160)
  | .w160 =>
    let tmp := u32 (70 + c.centerFreq - c.centerFreq1) / 20 / 4
    ({c with centerFreq1 := u32 (c.centerFreq1 - 40 + 80 * tmp),width := .w80},disable160)
  | .noHt20 => (c,disableHtVht)
  | .w5 => (c,disableHtVht)
  | .w10 => (c,disableHtVht)

section chantype
variable (cfg : Cfg80211) (sband : Sband)

def applyHtcapOverrides (o : Overrides) : Bool :=
  if !sband.htSupported then sband.supWidth2040
  else if o.mask && !o.capa then false
  else sband.supWidth2040

def noHtChandef (channel : Channel) : Chandef where
  chan := channel.chan
  band := channel.band
  centerFreq := channel.centerFreq
  width := .noHt20
  centerFreq1 := channel.centerFreq
  centerFreq2 := 0

def htChandef (channel : Channel) (oper : HtOperation) : Chandef :=
  let chandef := {noHtChandef channel with width := .w20}
  if oper.htParam &&& 3 = 1 then {chandef with width := .w40,centerFreq1 := u32 (channel.centerFreq + 10)}
  else if oper.htParam &&& 3 = 3 then {chandef with width := .w40,centerFreq1 := u32 (channel.centerFreq - 10)}
  else chandef

def vhtChandef (channel : Channel) (chandef : Chandef) (oper : VhtOperation) : Option Chandef :=
  let vht := {noHtChandef channel with centerFreq1 := cfg.channelToFrequency oper.centerFreqSeg1Idx.toNat channel.band}
  if oper.chanWidth = 0 then some {vht with width := chandef.width,centerFreq1 := chandef.centerFreq1}
  else if oper.chanWidth = 1 then some {vht with width := .w80}
  else if oper.chanWidth = 2 then some {vht with width := .w160}
  else if oper.chanWidth = 3 then some {vht with
    width := .w80p80
    centerFreq2 := cfg.channelToFrequency oper.centerFreqSeg2Idx.toNat channel.band}
  else none

-- ieee80211_determine_chantype at the label out.
def advertised (o : Overrides) (channel : Channel) (htCap : Option HtCap) (htOper : Option HtOperation)
    (vhtOper : Option VhtOperation) (tracking : Bool) : Chandef × StaFlags :=
  match htCap,htOper with
  | some cap,some oper =>
    if !sband.htSupported then (noHtChandef channel,disableHtVht)
    else if !cap.supWidth2040 then ({noHtChandef channel with width := .w20},disable40)
    else if !tracking && channel.centerFreq != cfg.channelToFrequency oper.primaryChan.toNat channel.band then
      ({noHtChandef channel with width := .w20},disableHtVht)
    else if !applyHtcapOverrides sband o then ({noHtChandef channel with width := .w20},disableVht40)
    else
      let chandef := htChandef channel oper
      match vhtOper with
      | none => (chandef,disableVht)
      | some vht =>
        if !sband.vhtSupported then (chandef,disableVht)
        else
          match vhtChandef cfg channel chandef vht with
          | none => (chandef,disableVht)
          | some wide =>
            if !cfg.valid wide then (chandef,disableVht)
            else if chandef = wide then (chandef,noFlags)
            else if (cfg.compatible chandef wide).isNone then (chandef,disableVht)
            else (wide,noFlags)
  | _,_ => (noHtChandef channel,disableHtVht)

-- For as many rounds as there are widths.
def makeUsable (usable : Chandef → Bool) : Nat → Chandef → StaFlags → Chandef × StaFlags
  | 0,chandef,ret => (chandef,ret)
  | fuel + 1,chandef,ret =>
    if usable chandef then (chandef,ret)
    else if chandef.width = .noHt20 then (chandef,disableHtVht)
    else makeUsable usable fuel (chandefDowngrade chandef).1 (ret.join (chandefDowngrade chandef).2)

def widths : Nat := 8

-- current is the channel of the interface.
def determineChantype (o : Overrides) (channel : Channel) (htCap : Option HtCap) (htOper : Option HtOperation)
    (vhtOper : Option VhtOperation) (current : Chandef) (tracking : Bool) : Chandef × StaFlags :=
  let out := advertised cfg sband o channel htCap htOper vhtOper tracking
  if tracking && out.1 = current then out
  else makeUsable (fun c => cfg.usable c !tracking) widths out.1 out.2

end chantype

structure Link where
  flags : StaFlags
  htCapa : Overrides
  chandef : Chandef
  chanctx : Bool
  htOperationMode : UInt16

structure Bss where
  bssid : Nat
  channel : Channel
  ssid : Bool
  proberesp : Bool
  wmmUsed : Bool
  htCap : Option HtCap
  htOper : Option HtOperation
  vhtCap : Bool
  vhtOper : Option VhtOperation

-- A refusal before the old context is released, a failure without a context, or one to get it assigned.
inductive Use where
  | ok
  | refused (err : Errno)
  | failed (err : Errno)
  | unassigned (err : Errno)
deriving DecidableEq

section setup
variable (cfg : Cfg80211) (sband : Sband)

def vifUseChannel (use : Chandef → Use) (chandef : Chandef) (l : Link) : Link × Option Errno :=
  match use chandef with
  | .ok => ({l with chandef := chandef,chanctx := true},none)
  | .refused err => (l,some err)
  | .failed err => ({l with chanctx := false},some err)
  | .unassigned err => ({l with chandef := chandef,chanctx := false},some err)

def useNarrower (use : Chandef → Use) : Nat → Chandef → Link × Option Errno → Link × Option Errno
  | 0,_,out => out
  | fuel + 1,chandef,(l,ret) =>
    if ret.isNone || chandef.width = .noHt20 then (l,ret)
    else
      let narrower := chandefDowngrade chandef
      useNarrower use fuel narrower.1 (vifUseChannel use narrower.1 {l with flags := l.flags.join narrower.2})

def prepElements (bss : Bss) (flags : StaFlags) : StaFlags × Option HtCap × Option HtOperation × Option VhtOperation :=
  let flags := {flags with disable40MHz := false,disable80p80MHz := false,disable160MHz := false}
  let ht := !flags.disableHt && sband.htSupported
  let htCap := if ht then bss.htCap else none
  let htOper := if ht && bss.htCap.isSome then bss.htOper else none
  let flags := {flags with disableHt := flags.disableHt || ht && bss.htCap.isNone}
  let vht := !flags.disableVht && sband.vhtSupported
  let vhtOper := if vht then bss.vhtOper else none
  let withoutHt := vhtOper.isSome && htOper.isNone
  let vhtOper := if withoutHt || !bss.vhtCap then none else vhtOper
  ({flags with
    disableHt := flags.disableHt || withoutHt
    disableVht := flags.disableVht || withoutHt || vht && !bss.vhtCap},htCap,htOper,vhtOper)

def prepChannel (bss : Bss) (use : Chandef → Use) (l : Link) : Link × Option Errno :=
  let (flags,htCap,htOper,vhtOper) := prepElements sband bss l.flags
  let (chandef,ret) := determineChantype cfg sband l.htCapa bss.channel htCap htOper vhtOper l.chandef false
  let out := vifUseChannel use chandef {l with flags := flags.join ret}
  if chandef.width = .w5 ∨ chandef.width = .w10 then out
  else useNarrower use widths chandef out

end setup

inductive RxBw where
  | bw20 | bw40 | bw80 | bw160

def RxBw.rank : RxBw → Nat
  | .bw20 => 0
  | .bw40 => 1
  | .bw80 => 2
  | .bw160 => 3

structure Sta where
  addr : Nat
  bandwidth : RxBw
  curMaxBandwidth : RxBw

structure Chanctx where
  chandef : Chandef
  replaceState : ReplaceState
  reserved : List Chandef

section tracking
variable (cfg : Cfg80211) (sband : Sband)

def reservedChandef (ctx : Chanctx) (compat : Chandef) : Option Chandef :=
  ctx.reserved.foldl (fun compat reserved => compat.bind (cfg.compatible reserved)) (some compat)

def vifChangeBandwidth (ctx : Chanctx) (chandef : Chandef) (l : Link) : Link × Option Errno :=
  if !cfg.usable chandef true then (l,some .inval)
  else if chandef = l.chandef then (l,none)
  else if chandef.width = .noHt20 ∨ l.chandef.width = .noHt20 then (l,some .inval)
  else if !l.chanctx then (l,some .inval)
  else
    match cfg.compatible ctx.chandef chandef with
    | none => (l,some .inval)
    | some compat =>
      match ctx.replaceState with
      | .unreplaced =>
        if (reservedChandef cfg ctx compat).isNone then (l,some .busy) else ({l with chandef := chandef},none)
      | .willBeReplaced => (l,some .busy)
      | .replacesOther => ({l with chandef := chandef},none)

def rxBandwidth : Width → Option RxBw
  | .noHt20 => some .bw20
  | .w20 => some .bw20
  | .w40 => some .bw40
  | .w80 => some .bw80
  | .w80p80 => some .bw160
  | .w160 => some .bw160
  | .w5 => none
  | .w10 => none

def restrict (restricted : Bool) (out : Chandef × StaFlags) : Chandef × StaFlags :=
  if restricted then ((chandefDowngrade out.1).1,out.2.join (chandefDowngrade out.1).2) else out

def wider20 : Width → Bool
  | .noHt20 => false
  | .w20 => false
  | _ => true

def trackedChandef (htCap : Option HtCap) (oper : HtOperation) (vhtOper : Option VhtOperation) (l : Link) : Chandef × StaFlags :=
  let vhtOper := if l.flags.disableVht then none else vhtOper
  let channel : Channel := ⟨l.chandef.chan,l.chandef.band,l.chandef.centerFreq⟩
  let out := determineChantype cfg sband l.htCapa channel htCap (some oper) vhtOper l.chandef true
  let out := restrict (l.flags.disable80p80MHz && out.1.width = .w80p80) out
  let out := restrict (l.flags.disable160MHz && out.1.width = .w160) out
  restrict (l.flags.disable40MHz && wider20 out.1.width) out

def configBw (ctx : Chanctx) (sta : Option Sta) (htCap : Option HtCap) (htOper : Option HtOperation)
    (vhtOper : Option VhtOperation) (l : Link) : Link × Option Sta × Option Errno :=
  match htOper with
  | none => (l,sta,none)
  | some oper =>
    if l.flags.disableHt then (l,sta,none)
    else
      match sta with
      | none => (l,sta,some .inval)
      | some sta =>
        let (chandef,flags) := trackedChandef cfg sband htCap oper vhtOper l
        let l := {l with htOperationMode := oper.operationMode}
        if chandef = l.chandef then (l,some sta,none)
        else if flags ≠ {l.flags with disableWmm := false} ∨ !cfg.valid chandef then (l,some sta,some .inval)
        else
          match rxBandwidth chandef.width with
          | none => (l,some sta,some .inval)
          | some bw =>
            let bw := if sta.curMaxBandwidth.rank < bw.rank then sta.curMaxBandwidth else bw
            let narrowed := if bw.rank < sta.bandwidth.rank then {sta with bandwidth := bw} else sta
            match vifChangeBandwidth cfg ctx chandef l with
            | (l,some err) => (l,some narrowed,some err)
            | (l,none) => (l,some (if narrowed.bandwidth.rank < bw.rank then {narrowed with bandwidth := bw} else narrowed),none)

end tracking

open Chan (Chandef Width)

def narrower : Nat → Chandef → List Chandef
  | 0,_ => []
  | fuel + 1,chandef =>
    if chandef.width = .noHt20 then []
    else (chandefDowngrade chandef).1 :: narrower fuel (chandefDowngrade chandef).1

def isRefused : Use → Bool
  | .refused _ => true
  | _ => false

def granted (use : Chandef → Use) (tried : List Chandef) : Bool := tried.any fun c => use c = .ok
def refusedAll (use : Chandef → Use) (tried : List Chandef) : Bool := tried.all fun c => isRefused (use c)

section attempts
variable {cfg : Cfg80211} {sband : Sband} {use : Chandef → Use} {chandef : Chandef} {l : Link}

theorem vifUseChannel_error : (vifUseChannel use chandef l).2.isNone = decide (use chandef = .ok) := by
  unfold vifUseChannel
  cases use chandef <;> simp

theorem vifUseChannel_chanctx :
    (vifUseChannel use chandef l).1.chanctx = (decide (use chandef = .ok) || l.chanctx && isRefused (use chandef)) := by
  unfold vifUseChannel isRefused
  cases use chandef <;> simp

theorem useNarrower_done (fuel : Nat) (l : Link) : useNarrower use fuel chandef (l,none) = (l,none) := by
  cases fuel <;> simp [useNarrower]

theorem useNarrower_spec (fuel : Nat) (chandef : Chandef) (l : Link) (err : Errno) :
    (useNarrower use fuel chandef (l,some err)).2.isNone = granted use (narrower fuel chandef) ∧
    (useNarrower use fuel chandef (l,some err)).1.chanctx =
      (granted use (narrower fuel chandef) || l.chanctx && refusedAll use (narrower fuel chandef)) := by
  induction fuel generalizing chandef l err with
  | zero => simp [useNarrower,narrower,granted,refusedAll]
  | succ fuel ih =>
    unfold useNarrower narrower
    by_cases last : chandef.width = .noHt20
    · simp [last,granted,refusedAll]
    rw [if_neg (by simp [last]),if_neg last]
    dsimp only
    have error := @vifUseChannel_error use (chandefDowngrade chandef).1 {l with flags := l.flags.join (chandefDowngrade chandef).2}
    have chanctx := @vifUseChannel_chanctx use (chandefDowngrade chandef).1 {l with flags := l.flags.join (chandefDowngrade chandef).2}
    generalize vifUseChannel use (chandefDowngrade chandef).1 {l with flags := l.flags.join (chandefDowngrade chandef).2} = out
      at error chanctx
    obtain ⟨l',_ | err'⟩ := out
    · have ok : use (chandefDowngrade chandef).1 = .ok := by simpa using error.symm
      rw [useNarrower_done]
      simpa [granted,ok] using chanctx
    have bad : use (chandefDowngrade chandef).1 ≠ .ok := by simpa using error.symm
    obtain ⟨later,held⟩ := ih (chandefDowngrade chandef).1 l' err'
    have skip : granted use ((chandefDowngrade chandef).1 :: narrower fuel (chandefDowngrade chandef).1) =
        granted use (narrower fuel (chandefDowngrade chandef).1) := by
      simp [granted,bad]
    rw [skip]
    refine ⟨later,?_⟩
    rw [held]
    rw [chanctx]
    simp [refusedAll,bad,Bool.and_assoc]

def candidates (cfg : Cfg80211) (sband : Sband) (bss : Bss) (l : Link) : List Chandef :=
  let elements := prepElements sband bss l.flags
  let chandef := (determineChantype cfg sband l.htCapa bss.channel elements.2.1 elements.2.2.1 elements.2.2.2 l.chandef false).1
  chandef :: if chandef.width = .w5 ∨ chandef.width = .w10 then [] else narrower widths chandef

theorem prepChannel_spec (bss : Bss) (l : Link) :
    (prepChannel cfg sband bss use l).2.isNone = granted use (candidates cfg sband bss l) ∧
    (prepChannel cfg sband bss use l).1.chanctx =
      (granted use (candidates cfg sband bss l) || l.chanctx && refusedAll use (candidates cfg sband bss l)) := by
  unfold prepChannel candidates
  dsimp only
  generalize prepElements sband bss l.flags = elements
  generalize determineChantype cfg sband l.htCapa bss.channel elements.2.1 elements.2.2.1 elements.2.2.2 l.chandef false = out
  obtain ⟨chandef,ret⟩ := out
  have error := @vifUseChannel_error use chandef {l with flags := elements.1.join ret}
  have chanctx := @vifUseChannel_chanctx use chandef {l with flags := elements.1.join ret}
  generalize vifUseChannel use chandef {l with flags := elements.1.join ret} = tried at error chanctx
  by_cases narrow : chandef.width = .w5 ∨ chandef.width = .w10
  · rw [if_pos narrow,if_pos narrow]
    simp only [granted,refusedAll,List.any_cons,List.any_nil,List.all_cons,List.all_nil,Bool.or_false,Bool.and_true]
    exact ⟨error,chanctx⟩
  rw [if_neg narrow,if_neg narrow]
  obtain ⟨l',_ | err⟩ := tried
  · have ok : use chandef = .ok := by simpa using error.symm
    rw [useNarrower_done]
    simpa [granted,ok] using chanctx
  have bad : use chandef ≠ .ok := by simpa using error.symm
  obtain ⟨later,held⟩ := @useNarrower_spec use widths chandef l' err
  have skip : granted use (chandef :: narrower widths chandef) = granted use (narrower widths chandef) := by
    simp [granted,bad]
  rw [skip]
  refine ⟨later,?_⟩
  rw [held]
  rw [chanctx]
  simp [refusedAll,bad,Bool.and_assoc]

end attempts

end Mac80211.Mlme

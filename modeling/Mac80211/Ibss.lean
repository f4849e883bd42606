import Mac80211.IbssPresp
import Mac80211.Blocks
import Mac80211.RxReorder

namespace Mac80211.Ibss
open Chan (Chandef Width Errno Mode)
open Blocks (Memory)
open RxReorder (Jiffies timeAfter)

inductive MlmeState where
  | search | joined
deriving DecidableEq

structure IfIbss where
  lastScanCompleted : Jiffies
  ibssJoinReq : Jiffies
  basicRates : UInt32
  fixedBssid : Bool
  fixedChannel : Bool
  privacy : Bool
  userspaceHandlesDfs : Bool
  bssid : EthAddr
  ssid : List UInt8
  ie : Option Nat
  ieLen : UInt8
  chandef : Chandef
  presp : Option Presp
  htCapa : HtCapa
  htCapaMask : HtCapa
  state : MlmeState

structure BssConf where
  ibssJoined : Bool
  ibssCreator : Bool
  enableBeacon : Bool
  beaconInt : UInt16
  basicRates : UInt32

-- blocks: those that u.ibss.ie pointed to.
structure Sdata where
  ibss : IfIbss
  conf : BssConf
  chanctxConf : Option Chandef
  memory : Memory (List UInt8)

-- params->ie_len is a u8.
abbrev Elements := {bytes : List UInt8 // bytes.length < 256}

structure Params where
  ssid : List UInt8
  bssid : Option EthAddr
  chandef : Chandef
  ie : Option Elements
  beaconInterval : UInt16
  basicRates : UInt32
  channelFixed : Bool
  privacy : Bool
  userspaceHandlesDfs : Bool
  htCapa : HtCapa
  htCapaMask : HtCapa

structure Bss where
  bssid : EthAddr
  channel : Channel
  beaconInterval : UInt16
  capability : UInt16
  suppRates : List UInt8
  tsf : UInt64

-- The regulatory rules, the other interfaces, the memory, the driver. The byte at an address that no buffer
-- covers is other.
structure Answers where
  regCanBeacon : Chandef → Bool
  dfsRequired : Chandef → Except Errno Bool
  checkCombinations : Chandef → Mode → Option Width → Option Errno
  context : Chandef → Mode → Except Errno Chandef
  assign : Option Errno
  alloc : Bool
  other : Nat → UInt8
  drvJoinIbss : Option Errno

def capabilityIbss : UInt16 := 0x0002
def capabilityPrivacy : UInt16 := 0x0010

def Sdata.privacy (s : Sdata) : UInt16 := if s.ibss.privacy then capabilityPrivacy else 0

section functions
variable (hw : Hw) (a : Answers)

def Sdata.extra (s : Sdata) (other : Nat → UInt8) : List UInt8 :=
  let bytes := (s.ibss.ie.bind s.memory.load).getD []
  (List.range s.ibss.ieLen.toNat).map fun i => bytes.getD i (other i)

def buildPresp (s : Sdata) (n : Announced) (csa : Option CsaSettings) : Option Presp :=
  ibssBuildPresp hw s.ibss.htCapa s.ibss.htCapaMask n s.ibss.ieLen (s.extra a.other) csa a.alloc

def notJoined (conf : BssConf) : BssConf := {conf with ibssJoined := false,ibssCreator := false,enableBeacon := false}

def vifUseChannel (chandef : Chandef) (mode : Mode) (s : Sdata) : Option Errno × Sdata :=
  match a.dfsRequired chandef with
  | .error err => (some err,s)
  | .ok radar =>
    match a.checkCombinations chandef mode (if radar then some chandef.width else none) with
    | some err => (some err,s)
    | none =>
      match a.context chandef mode with
      | .error err => (some err,{s with chanctxConf := none})
      | .ok conf =>
        match a.assign with
        | some err => (some err,{s with chanctxConf := none})
        | none => (none,{s with chanctxConf := some conf})

structure Join where
  bssid : EthAddr
  beaconInt : UInt16
  chandef : Chandef
  basicRates : UInt32
  capability : UInt16
  tsf : UInt64
  creator : Bool

def narrow (width : Width) : Bool := width == .w5 || width == .w10 || width == .noHt20 || width == .w20

def beaconChandef (chandef : Chandef) : Option Chandef :=
  if a.regCanBeacon chandef then some chandef
  else if narrow chandef.width then none
  else
    let chandef := {chandef with width := .w20,centerFreq1 := chandef.centerFreq}
    if a.regCanBeacon chandef then some chandef else none

def dfsAllowed (handled : Bool) (chandef : Chandef) : Bool :=
  match a.dfsRequired chandef with
  | .error _ => false
  | .ok radar => !radar || handled

-- The old network is left before it is known whether the new one can be joined.
def leaveOld (s : Sdata) : Sdata := {s with
  ibss := {s.ibss with presp := none}
  conf := if s.conf.ibssJoined then notJoined s.conf else s.conf}

def IfIbss.mode (ibss : IfIbss) : Mode := if ibss.fixedChannel then .shared else .exclusive

def announced (s : Sdata) (j : Join) (chandef : Chandef) : Announced :=
  ⟨j.bssid,s.ibss.ssid,j.beaconInt,j.basicRates,j.capability,j.tsf,chandef⟩

def enterIbss (j : Join) (chandef : Chandef) (s : Sdata) : Sdata × Option Presp :=
  match buildPresp hw a s (announced s j chandef) none with
  | none => ({s with ibss := {s.ibss with bssid := j.bssid}},none)
  | some presp =>
    match a.drvJoinIbss with
    | some _ =>
      ({s with
        ibss := {s.ibss with bssid := j.bssid,presp := none}
        conf := {notJoined s.conf with beaconInt := j.beaconInt,basicRates := j.basicRates}
        chanctxConf := none},some presp)
    | none =>
      ({s with
        ibss := {s.ibss with bssid := j.bssid,presp := some presp,state := .joined}
        conf := ⟨true,j.creator,true,j.beaconInt,j.basicRates⟩},some presp)

def joinIbss (j : Join) (s : Sdata) : Sdata × Option Presp :=
  let s := leaveOld s
  match beaconChandef a j.chandef with
  | none => (s,none)
  | some chandef =>
    if !dfsAllowed a s.ibss.userspaceHandlesDfs chandef then (s,none)
    else
      match vifUseChannel a chandef s.ibss.mode s with
      | (some _,s) => (s,none)
      | (none,s) => enterIbss hw a j chandef s

def basicRatesOf (s : Sdata) (bss : Bss) : UInt32 :=
  let flags := hw.rateFlags s.ibss.chandef.width
  let units := 5 * 2 ^ ((s.chanctxConf.map chandefGetShift).getD 0)
  let bitrates := (hw.bands bss.channel.band).bitrates
  bss.suppRates.foldl (fun (rates : UInt32) (supp : UInt8) =>
    match bitrates.findIdx? fun rate => flags &&& rate.flags == flags &&
        (rate.bitrate.toNat + units - 1) / units == (supp &&& 0x7f).toNat with
    | some i => if supp &&& 0x80 != 0 then rates ||| ((1 : UInt32) <<< UInt32.ofNat i) else rates
    | none => rates) 0

def joinChandef (ibss : IfIbss) (channel : Channel) : Chandef :=
  match ibss.chandef.width with
  | .noHt20 | .w20 | .w40 => hw.chandefCreate channel (hw.getChandefType ibss.chandef)
  | .w5 | .w10 => {hw.chandefCreate channel .noHt with width := ibss.chandef.width}
  | .w80 | .w160 => {ibss.chandef with chan := channel.chan,band := channel.band,centerFreq := channel.centerFreq}
  | .w80p80 => hw.chandefCreate channel .noHt

def joinOf (bss : Bss) (s : Sdata) : Join :=
  ⟨bss.bssid,if bss.beaconInterval < 10 then 10 else bss.beaconInterval,joinChandef hw s.ibss bss.channel,
    basicRatesOf hw s bss,bss.capability,bss.tsf,false⟩

def staJoinIbss (bss : Bss) (s : Sdata) : Sdata × Option Presp := joinIbss hw a (joinOf hw bss s) s

theorem firstByte : 0 < 6 := by decide

def randomBssid (random : EthAddr) : EthAddr :=
  let mixed := Vector.zipWith (· ^^^ ·) random hw.addr
  mixed.set 0 ((mixed.get ⟨0,firstByte⟩ &&& 0xfe) ||| 0x02) firstByte

def createOf (random : EthAddr) (s : Sdata) : Join :=
  ⟨if s.ibss.fixedBssid then s.ibss.bssid else randomBssid hw random,s.conf.beaconInt,s.ibss.chandef,
    s.ibss.basicRates,capabilityIbss ||| s.privacy,0,true⟩

def staCreateIbss (random : EthAddr) (s : Sdata) : Sdata × Option Presp := joinIbss hw a (createOf hw random s) s

def staFindIbss (hz now : Jiffies) (active : Bool) (found : Option Bss) (random : EthAddr) (s : Sdata) : Sdata × Option Presp :=
  if active then (s,none)
  else
    match found with
    | some bss => staJoinIbss hw a bss s
    | none =>
      if s.ibss.fixedBssid && s.ibss.fixedChannel then staCreateIbss hw a random s
      else if timeAfter now (s.ibss.lastScanCompleted + 2 * hz) then (s,none)
      else if timeAfter now (s.ibss.ibssJoinReq + 7 * hz) then staCreateIbss hw a random s
      else (s,none)

def ibssWork (hz now : Jiffies) (active : Bool) (found : Option Bss) (random : EthAddr) (s : Sdata) : Sdata × Option Presp :=
  if s.ibss.ssid = [] then (s,none)
  else
    match s.ibss.state with
    | .search => staFindIbss hw a hz now active found random s
    | .joined => (s,none)

-- The end of ieee80211_rx_bss_info; handled: a channel switch is active or was announced.
def rxBssInfo (bss : Bss) (ssid : List UInt8) (handled : Bool) (beaconTimestamp rxTimestamp : UInt64) (s : Sdata) : Sdata × Option Presp :=
  if s.ibss.ssid = [] then (s,none)
  else if bss.capability &&& capabilityIbss = 0 then (s,none)
  else if s.ibss.fixedChannel && s.ibss.chandef.chan != bss.channel.chan then (s,none)
  else if ssid ≠ s.ibss.ssid then (s,none)
  else if handled then (s,none)
  else if bss.bssid = s.ibss.bssid then (s,none)
  else if s.ibss.fixedBssid then (s,none)
  else if beaconTimestamp > rxTimestamp then staJoinIbss hw a bss s
  else (s,none)

def ibssCsaBeacon (csa : Option CsaSettings) (tsf : Option UInt64) (s : Sdata) : Sdata × Option Presp :=
  match tsf with
  | none => (s,none)
  | some tsf =>
    match buildPresp hw a s ⟨s.ibss.bssid,s.ibss.ssid,s.conf.beaconInt,s.conf.basicRates,s.privacy,tsf,s.ibss.chandef⟩ csa with
    | none => (s,none)
    | some presp => ({s with ibss := {s.ibss with presp := some presp}},some presp)

-- Another width, a width above 40 MHz, the other 40 MHz or another band.
def refusesSwitch (next now : Chandef) : Bool :=
  next.width != now.width || next.width ∈ [.w80,.w80p80,.w160] ||
    next.width = .w40 && hw.getChandefType next ≠ hw.getChandefType now || now.band != next.band

def setCsaBeacon (csa : CsaSettings) (tsf : Option UInt64) (s : Sdata) : Sdata × Option Presp :=
  if !s.conf.ibssJoined then (s,none)
  else if refusesSwitch hw csa.chandef s.ibss.chandef then (s,none)
  else if csa.count ≤ 1 then (s,none)
  else ibssCsaBeacon hw a (some csa) tsf s

def ibssFinishCsa (csaChandef : Chandef) (tsf : Option UInt64) (s : Sdata) : Sdata × Option Presp :=
  ibssCsaBeacon hw a none tsf {s with ibss := {s.ibss with chandef := csaChandef}}

def ibssDisconnect (s : Sdata) : Sdata := {s with
  ibss := {s.ibss with state := .search,presp := none}
  conf := notJoined s.conf
  chanctxConf := none}

def fixBasicRates (chandef : Chandef) (rates : UInt32) : UInt32 :=
  let flags := hw.rateFlags chandef.width
  (hw.bands chandef.band).bitrates.zipIdx.foldl (fun rates (rate,i) =>
    if flags &&& rate.flags != flags then rates &&& ~~~((1 : UInt32) <<< UInt32.ofNat i) else rates) rates

-- Where there is no memory for the copy the pointer is NULL and the length stays.
def copyElements (ie : Option Elements) (s : Sdata) : Sdata :=
  match ie with
  | none => s
  | some bytes =>
    if a.alloc then
      {s with
        ibss := {s.ibss with ie := some s.memory.next,ieLen := UInt8.ofNat bytes.1.length}
        memory := s.memory.alloc bytes.1}
    else {s with ibss := {s.ibss with ie := none}}

def configure (p : Params) (now : Jiffies) (s : Sdata) : Sdata := {s with
  ibss := {s.ibss with
    bssid := p.bssid.getD s.ibss.bssid
    fixedBssid := p.bssid.isSome
    privacy := p.privacy
    userspaceHandlesDfs := p.userspaceHandlesDfs
    basicRates := fixBasicRates hw p.chandef p.basicRates
    lastScanCompleted := now
    chandef := p.chandef
    fixedChannel := p.channelFixed
    state := .search
    ibssJoinReq := now
    ssid := p.ssid
    htCapa := p.htCapa
    htCapaMask := p.htCapaMask}
  conf := {s.conf with beaconInt := p.beaconInterval}}

def joinRefusal (p : Params) : Option Errno :=
  match a.dfsRequired p.chandef with
  | .error err => some err
  | .ok radar =>
    if radar && !p.userspaceHandlesDfs then some .inval
    else a.checkCombinations p.chandef (if p.channelFixed && !radar then .shared else .exclusive)
      (if radar then some p.chandef.width else none)

def ibssJoin (p : Params) (now : Jiffies) (s : Sdata) : Except Errno Sdata :=
  match joinRefusal a p with
  | some err => .error err
  | none => .ok (copyElements a p.ie (configure hw p now s))

def noCapa : HtCapa := ⟨0,0,Vector.replicate 10 0⟩

-- ieee80211_ibss_leave: neither u.ibss.ie nor ie_len is reset.
def ibssLeave (s : Sdata) : Sdata :=
  let s := ibssDisconnect s
  {s with
    ibss := {s.ibss with ssid := [],bssid := macAddr 0 0 0 0 0 0,htCapa := noCapa,htCapaMask := noCapa}
    memory := s.memory.free s.ibss.ie}

end functions

inductive Event where
  | join (a : Answers) (p : Params) (now : Jiffies)
  | leave
  | work (a : Answers) (now : Jiffies) (active : Bool) (found : Option Bss) (random : EthAddr)
  | beacon (a : Answers) (bss : Bss) (ssid : List UInt8) (handled : Bool) (beaconTimestamp rxTimestamp : UInt64)
  | scanCompleted (now : Jiffies)
  | connectionDrop
  | announceSwitch (a : Answers) (csa : CsaSettings) (tsf : Option UInt64)
  | finishSwitch (a : Answers) (csaChandef : Chandef) (tsf : Option UInt64)

def serve (hw : Hw) (hz : Jiffies) (s : Sdata) : Event → Sdata × Option Presp
  | .join a p now =>
    match ibssJoin hw a p now s with
    | .error _ => (s,none)
    | .ok s => (s,none)
  | .leave => (ibssLeave s,none)
  | .work a now active found random => ibssWork hw a hz now active found random s
  | .beacon a bss ssid handled beaconTimestamp rxTimestamp => rxBssInfo hw a bss ssid handled beaconTimestamp rxTimestamp s
  | .scanCompleted now => ({s with ibss := {s.ibss with lastScanCompleted := now}},none)
  | .connectionDrop => (ibssDisconnect s,none)
  | .announceSwitch a csa tsf => setCsaBeacon hw a csa tsf s
  | .finishSwitch a csaChandef tsf => ibssFinishCsa hw a csaChandef tsf s

def step (hw : Hw) (hz : Jiffies) (s : Sdata) (e : Event) : Sdata := (serve hw hz s e).1

def run (hw : Hw) (hz : Jiffies) (s : Sdata) (events : List Event) : Sdata := events.foldl (step hw hz) s

def setup : Sdata := {
  ibss := {
    lastScanCompleted := 0
    ibssJoinReq := 0
    basicRates := 0
    fixedBssid := false
    fixedChannel := false
    privacy := false
    userspaceHandlesDfs := false
    bssid := macAddr 0 0 0 0 0 0
    ssid := []
    ie := none
    ieLen := 0
    chandef := ⟨0,0,0,.noHt20,0,0⟩
    presp := none
    htCapa := noCapa
    htCapaMask := noCapa
    state := .search}
  conf := ⟨false,false,false,0,0⟩
  chanctxConf := none
  memory := ⟨[],[]⟩}

section work
variable (hw : Hw) (a : Answers) (hz now : Jiffies) (active : Bool) (found : Option Bss) (random : EthAddr) (s : Sdata)

def workAttempt : Option Join :=
  if s.ibss.ssid = [] ∨ s.ibss.state = .joined ∨ active = true then none
  else
    match found with
    | some bss => some (joinOf hw bss s)
    | none =>
      if (s.ibss.fixedBssid && s.ibss.fixedChannel) = true then some (createOf hw random s)
      else if timeAfter now (s.ibss.lastScanCompleted + 2 * hz) then none
      else if timeAfter now (s.ibss.ibssJoinReq + 7 * hz) then some (createOf hw random s)
      else none

end work

def beaconAttempt (hw : Hw) (bss : Bss) (ssid : List UInt8) (handled : Bool) (beaconTimestamp rxTimestamp : UInt64) (s : Sdata) : Option Join :=
  if s.ibss.ssid ≠ [] ∧ bss.capability &&& capabilityIbss ≠ 0 ∧
      (s.ibss.fixedChannel && s.ibss.chandef.chan != bss.channel.chan) = false ∧ ssid = s.ibss.ssid ∧ handled = false ∧
      bss.bssid ≠ s.ibss.bssid ∧ s.ibss.fixedBssid = false ∧ beaconTimestamp > rxTimestamp then
    some (joinOf hw bss s)
  else none

theorem ibssWork_attempt (hw : Hw) (a : Answers) (hz now : Jiffies) (active : Bool) (found : Option Bss) (random : EthAddr) (s : Sdata) :
    ibssWork hw a hz now active found random s =
      (workAttempt hw hz now active found random s).elim (s,none) fun j => joinIbss hw a j s := by
  unfold ibssWork workAttempt staFindIbss staJoinIbss staCreateIbss
  by_cases idle : s.ibss.ssid = []
  · simp [idle]
  cases state : s.ibss.state with
  | joined => simp
  | search =>
    cases active with
    | true => simp
    | false =>
      cases found with
      | some => simp [idle]
      | none =>
        simp only [idle,if_false,Bool.false_eq_true,or_false,reduceCtorEq]
        split_ifs <;> rfl

theorem rxBssInfo_attempt (hw : Hw) (a : Answers) (bss : Bss) (ssid : List UInt8) (handled : Bool) (beaconTimestamp rxTimestamp : UInt64)
    (s : Sdata) :
    rxBssInfo hw a bss ssid handled beaconTimestamp rxTimestamp s =
      (beaconAttempt hw bss ssid handled beaconTimestamp rxTimestamp s).elim (s,none) fun j => joinIbss hw a j s := by
  unfold rxBssInfo beaconAttempt staJoinIbss
  split_ifs <;> simp_all

theorem serve_join (hw : Hw) (hz : Jiffies) (a : Answers) (p : Params) (now : Jiffies) (s : Sdata) :
    (serve hw hz s (.join a p now)).1 = if (joinRefusal a p).isSome then s else copyElements a p.ie (configure hw p now s) := by
  unfold serve ibssJoin
  dsimp only
  cases joinRefusal a p <;> rfl

def radio : Hw := {
  addr := macAddr 2 0 0 0 0 1
  bands := fun _ => ⟨true,[⟨0,10⟩,⟨0,20⟩],⟨false,0,0,0,⟨Vector.replicate 10 0,Vector.replicate 6 0⟩⟩,⟨false,0,Vector.replicate 8 0⟩⟩
  queues := 1
  rateFlags := fun _ => 0
  frequencyToChannel := fun freq => UInt8.ofNat ((freq - 2407) / 5)
  chandefCreate := fun channel _ => ⟨channel.chan,channel.band,channel.centerFreq,.noHt20,channel.centerFreq,0⟩
  getChandefType := fun _ => .noHt}

def channel1 : Chandef := ⟨1,0,2412,.noHt20,2412,0⟩
def network (last : UInt8) (tsf : UInt64) : Bss := ⟨macAddr 2 0 0 0 0 last,⟨1,0,2412⟩,100,0x0002,[2,4],tsf⟩

def willing : Answers := ⟨fun _ => true,fun _ => .ok false,fun _ _ _ => none,fun chandef _ => .ok chandef,none,true,fun _ => 0,none⟩

def request (ie : Option Elements) : Params := ⟨[109,97,99],none,channel1,ie,100,3,false,false,false,noCapa,noCapa⟩

end Mac80211.Ibss

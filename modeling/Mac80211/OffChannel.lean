import Mac80211.Scan
import Mac80211.Iface
import Mac80211.Queues

namespace Mac80211.OffChannel
open Scan (Channel Request Scanning ScanState notScanning Errno)
open Iface (IfType)
open Queues (Reason)

-- offchannel: SDATA_STATE_OFFCHANNEL, beaconStopped: SDATA_STATE_OFFCHANNEL_BEACON_STOPPED.
structure Vif where
  type : IfType
  running : Bool
  enableBeacon : Bool
  offchannel : Bool
  beaconStopped : Bool
deriving DecidableEq

structure Roc where
  id : Nat
  sdata : Nat
  chan : Channel
  duration : Nat
  started : Bool
  onChannel : Bool
  abort : Bool
  pending : Bool

-- A device that scans and remains on channels in software, without channel contexts. scanChan is
-- scan_chandef.chan.
structure Local where
  vifs : List Vif
  queues : Queues.World
  scanReq : Option Request
  scanSdata : Option Nat
  scanning : Scanning
  scanChan : Option Channel
  nextScanState : ScanState
  scanChannelIdx : Nat
  rocList : List Roc
  tmpChannel : Option Channel
  asked : Nat

section vifs
variable (cfg : Queues.Config)

def stopVif (v : Vif) : Vif :=
  if !v.running then v
  else if v.type = .p2pDevice then v
  else {v with
    offchannel := v.offchannel || v.type != .monitor
    beaconStopped := v.beaconStopped || v.enableBeacon
    enableBeacon := false}

def returnVif (v : Vif) : Vif :=
  if v.type = .p2pDevice then v
  else
    let v := {v with offchannel := v.offchannel && v.type == .monitor}
    if !v.running then v
    else if v.beaconStopped then {v with beaconStopped := false,enableBeacon := true}
    else v

def stopQueues (w : Queues.World) (reason : Reason) : Queues.World :=
  (List.range cfg.hwQueues).foldl (fun w queue => Queues.stopQueue cfg w queue reason false) w

def wakeQueues (w : Queues.World) (reason : Reason) : Queues.World :=
  (List.range cfg.hwQueues).foldl (fun w queue => Queues.wakeQueue cfg w queue reason false) w

def offchannelStopVifs (l : Local) : Local := {l with
  queues := stopQueues cfg l.queues .offchannel
  vifs := l.vifs.map stopVif}

def offchannelReturn (l : Local) : Local := {l with
  queues := wakeQueues cfg l.queues .offchannel
  vifs := l.vifs.map returnVif}

end vifs

section roc
variable (cfg : Queues.Config)

def startNextRoc (l : Local) : Local :=
  match l.rocList with
  | [] => l
  | roc :: rest => if roc.started then l else {l with rocList := {roc with pending := true} :: rest}

def checkCombine (roc : Roc) (timer : Bool) : List Roc → Option (List Roc)
  | [] => none
  | tmp :: rest =>
    if tmp.chan ≠ roc.chan ∨ tmp.sdata ≠ roc.sdata then (checkCombine roc timer rest).map (tmp :: ·)
    else if !tmp.started then some ({tmp with duration := max tmp.duration roc.duration} :: rest)
    else if timer then some (tmp :: rest)
    else none

-- timer: that of a started period could be taken out.
def startRocWork (sdata : Nat) (chan : Channel) (duration : Nat) (radarRequired timer : Bool) (l : Local) : Local :=
  let duration := if duration = 0 then 10 else duration
  let roc : Roc := ⟨l.asked,sdata,chan,duration,false,false,false,false⟩
  let l := {l with asked := l.asked + 1}
  if !l.rocList.isEmpty || l.scanning != notScanning || radarRequired then
    match checkCombine roc timer l.rocList with
    | some list => {l with rocList := list}
    | none => {l with rocList := l.rocList ++ [roc]}
  else {l with rocList := l.rocList ++ [{roc with pending := true}]}

-- The rest is left to the work.
def cancelRoc (id : Nat) (l : Local) : Local := {l with
  rocList := l.rocList.map fun roc => if roc.id = id then {roc with abort := true,pending := true} else roc}

def finishRoc (roc : Roc) (l : Local) : Local :=
  let l := if roc.started && !roc.onChannel then offchannelReturn cfg {l with tmpChannel := none} else l
  if roc.started then startNextRoc l else l

def take (id : Nat) : List Roc → Option (List Roc × Roc × List Roc)
  | [] => none
  | roc :: rest =>
    if roc.id = id ∧ roc.pending = true then some ([],{roc with pending := false},rest)
    else (take id rest).map fun out => (roc :: out.1,out.2.1,out.2.2)

-- onChannel: the device operates on its channel with 20 MHz at least.
def beginRoc (roc : Roc) (onChannel : Bool) (rest : List Roc) (l : Local) : Local :=
  let roc := {roc with onChannel := onChannel}
  let l := if !onChannel then {offchannelStopVifs cfg l with tmpChannel := some roc.chan} else l
  if roc.duration = 0 then finishRoc cfg roc {l with rocList := rest}
  else {l with rocList := {roc with started := true,pending := true} :: rest}

def swRocWork (id : Nat) (operChan : Option Channel) (narrow : Bool) (l : Local) : Local :=
  match take id l.rocList with
  | none => l
  | some (before,roc,after) =>
    if roc.abort then finishRoc cfg roc {l with rocList := before ++ after}
    else if !before.isEmpty then {l with rocList := before ++ roc :: after}
    else if !roc.started then beginRoc cfg roc (operChan == some roc.chan && !narrow) after l
    else finishRoc cfg roc {l with rocList := after}

end roc

section scan
variable (cfg : Queues.Config)

structure StartAnswers where
  radarRequired : Bool
  connectionPoll : Bool
  operChan : Option Channel

structure Round where
  running : Bool
  associated : Bool
  txEmpty : Bool
  badLatency : Bool
  skip : Bool

-- The loop ends before the rounds do.
structure WorkAnswers where
  canRun : Bool
  start : StartAnswers
  flush : Bool
  rounds : List Round

def scanCompleted (l : Local) : Local :=
  if l.scanReq.isNone then l
  else
    let wasScanning := l.scanning != notScanning
    let l := offchannelReturn cfg {l with scanReq := none,scanSdata := none,scanning := notScanning,scanChan := none}
    if wasScanning then startNextRoc l else l

def canScan (a : StartAnswers) (l : Local) : Bool := !a.radarRequired && l.rocList.isEmpty && !a.connectionPoll

def startSwScan (l : Local) : Local := offchannelStopVifs cfg {l with nextScanState := .decision,scanChannelIdx := 0}

def startScan (sdata : Nat) (req : Request) (a : StartAnswers) (l : Local) : Local × Option Errno :=
  if l.scanReq.isSome || a.radarRequired then (l,some .busy)
  else
    let l := {l with scanReq := some req,scanSdata := some sdata}
    if !canScan a l then (l,none)
    else if req.channels.map some = [a.operChan] then
      ({l with scanning := {l.scanning with onchannelScanning := true}},none)
    else (startSwScan cfg {l with scanning := {l.scanning with swScanning := true}},none)

def scanStateDecision (req : Request) (round : Round) : ScanState :=
  if round.associated && !round.txEmpty then
    if req.lowPriority then .abort else .suspend
  else if round.associated && round.badLatency then .suspend
  else .setChannel

def scanStateSuspend (l : Local) : Local := {offchannelReturn cfg {l with scanChan := none} with nextScanState := .resume}

def scanStateResume (l : Local) : Local := {offchannelStopVifs cfg l with nextScanState := .setChannel}

def machine (req : Request) (flush : Bool) : List Round → Local → Local × Bool
  | [],l => (l,false)
  | round :: rest,l =>
    if !round.running then (l,true)
    else
      match l.nextScanState with
      | .decision =>
        if req.channels.length ≤ l.scanChannelIdx then (l,true)
        else machine req flush rest {l with nextScanState := scanStateDecision req round}
      | .setChannel =>
        match req.channels[l.scanChannelIdx]? with
        | none => (l,false)
        | some chan =>
          let l := {l with scanChan := some chan,scanChannelIdx := l.scanChannelIdx + 1}
          if round.skip then machine req flush rest {l with nextScanState := .decision}
          else if chan.noIr || req.nSsids = 0 then ({l with nextScanState := .decision},false)
          else ({l with nextScanState := .sendProbe},false)
      | .sendProbe => ({l with nextScanState := .decision},false)
      | .suspend => (scanStateSuspend cfg l,false)
      | .resume => if flush then machine req flush rest (scanStateResume cfg l) else (scanStateResume cfg l,false)
      | .abort => (l,true)

def scanWork (a : WorkAnswers) (l : Local) : Local :=
  if !a.canRun then scanCompleted cfg l
  else if l.scanning.onchannelScanning then
    scanCompleted cfg {l with scanning := {l.scanning with aborted := false}}
  else if l.scanning.completed then
    scanCompleted cfg {l with scanning := {l.scanning with completed := false,aborted := false}}
  else
    match l.scanSdata,l.scanReq with
    | some sdata,some req =>
      if l.scanning = notScanning then
        match startScan cfg sdata req a.start {l with scanReq := none,scanSdata := none} with
        | (l,none) => l
        | (l,some _) => scanCompleted cfg {l with scanReq := some req}
      else
        match machine cfg req a.flush a.rounds l with
        | (l,false) => l
        | (l,true) => scanCompleted cfg l
    | _,_ => l

end scan

-- The works may run at any time that they are pending, the scan work at any time.
inductive Event where
  | scan (sdata : Nat) (req : Request) (a : StartAnswers)
  | scanWork (a : WorkAnswers)
  | scanCancel
  | roc (sdata : Nat) (chan : Channel) (duration : Nat) (radarRequired timer : Bool)
  | rocWork (id : Nat) (operChan : Option Channel) (narrow : Bool)
  | rocCancel (id : Nat)

def step (cfg : Queues.Config) (l : Local) : Event → Local
  | .scan sdata req a => (startScan cfg sdata req a l).1
  | .scanWork a => scanWork cfg a l
  | .scanCancel => scanCompleted cfg l
  | .roc sdata chan duration radarRequired timer => startRocWork sdata chan duration radarRequired timer l
  | .rocWork id operChan narrow => swRocWork cfg id operChan narrow l
  | .rocCancel id => cancelRoc id l

end Mac80211.OffChannel

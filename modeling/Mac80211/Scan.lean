import Mathlib.Tactic.Common

namespace Mac80211.Scan

inductive Band where
  | band2GHz | band5GHz | band60GHz
deriving DecidableEq

def bands : List Band := [.band2GHz,.band5GHz,.band60GHz]

structure Channel where
  hwValue : Nat
  band : Band
  noIr : Bool
  disabled : Bool
deriving DecidableEq

-- int_scan_req has no id. None is without channels.
structure Request where
  id : Option Nat
  channels : List Channel
  nSsids : Nat
  lowPriority : Bool
  nonempty : channels ≠ []

inductive Errno where
  | busy | noMem | opNotSupp
  | driver (err : Nat)
deriving DecidableEq

structure Scanning where
  swScanning : Bool
  hwScanning : Bool
  onchannelScanning : Bool
  completed : Bool
  aborted : Bool
  hwCancelled : Bool
deriving DecidableEq

def notScanning : Scanning := ⟨false,false,false,false,false,false⟩

inductive ScanState where
  | decision | setChannel | sendProbe | suspend | resume | abort

-- A tune is a call of ieee80211_hw_config.
inductive Call where
  | cancelled (id : Option Nat)
  | hwScan (id : Option Nat) (channels : List Channel) (result : Option Errno)
  | tune (id : Option Nat) (channel : Channel) (result : Option Errno)
  | scanDone (id : Nat) (aborted : Bool)
deriving DecidableEq

-- hwScanReq: its channels; hwScanBand: the bands left; requests: what was asked for from outside.
structure World where
  scanReq : Option Request
  scanSdata : Option Nat
  hwScanReq : Option (List Channel)
  hwScanBand : List Band
  scanning : Scanning
  nextScanState : ScanState
  scanChannelIdx : Nat
  requests : List (Request × Option Errno)
  trace : List Call

structure Hw where
  hwScan : Bool
  singleHwScanOnAllBands : Bool
  useChanctx : Bool
  flush : Bool
  wiphyChannels : List Channel

structure StartAnswers where
  radarRequired : Bool
  rocBusy : Bool
  connectionPoll : Bool
  memory : Bool
  drvHwScan : Option Errno
  operChan : Option Channel
  hwConfig : Option Errno

structure Round where
  running : Bool
  associated : Bool
  txEmpty : Bool
  badLatency : Bool
  hwConfig : Option Errno

structure WorkAnswers where
  canRun : Bool
  start : StartAnswers
  drvHwScan : Option Errno
  round : Nat → Round

def World.log (w : World) (call : Call) : World := {w with trace := w.trace ++ [call]}

section scan
variable (hw : Hw)

def prepBands (channels : List Channel) : List Band → Option (List Band × List Channel)
  | [] => none
  | band :: rest =>
    let chosen := channels.filter fun channel => channel.band = band
    if chosen = [] then prepBands channels rest else some (rest,chosen)

def prepHwScan (w : World) (req : Request) : World × Bool :=
  if w.scanning.hwCancelled then (w,false)
  else if hw.singleHwScanOnAllBands then ({w with hwScanReq := w.hwScanReq.map fun _ => req.channels},true)
  else
    match prepBands req.channels w.hwScanBand with
    | none => ({w with hwScanBand := []},false)
    | some (rest,chosen) => ({w with hwScanReq := w.hwScanReq.map fun _ => chosen,hwScanBand := rest},true)

def finish (w : World) (req : Request) (aborted : Bool) : World :=
  {w with
    hwScanReq := none
    scanReq := none
    scanSdata := none
    scanning := notScanning
    trace := w.trace ++ (req.id.map fun id => Call.scanDone id aborted).toList}

def scanCompleted (w : World) (aborted : Bool) (drvHwScan : Option Errno) : World :=
  let aborted := aborted || decide (w.scanning = notScanning)
  match w.scanReq with
  | none => w
  | some req =>
    if hw.hwScan && !aborted && !hw.singleHwScanOnAllBands then
      let (w,more) := prepHwScan hw w req
      if more then
        let w := w.log (.hwScan req.id (w.hwScanReq.getD []) drvHwScan)
        if drvHwScan = none then w else finish w req aborted
      else finish w req aborted
    else finish w req aborted

def canScan (answers : StartAnswers) : Bool := !answers.radarRequired && !answers.rocBusy && !answers.connectionPoll

def startFailed (w : World) : World := {w with hwScanReq := none,scanning := notScanning,scanReq := none,scanSdata := none}

def allocated (w : World) (sdata : Nat) (req : Request) : World :=
  {w with
    hwScanReq := some []
    hwScanBand := bands
    scanReq := some req
    scanSdata := some sdata
    scanning := {w.scanning with hwScanning := true}}

def prepareHwScan (w : World) (sdata : Nat) (req : Request) : World := (prepHwScan hw (allocated w sdata req) req).1

def startScan (w : World) (sdata : Nat) (req : Request) (answers : StartAnswers) : World × Option Errno :=
  if w.scanReq.isSome || answers.radarRequired then (w,some .busy)
  else if !canScan answers then ({w with scanReq := some req,scanSdata := some sdata},none)
  else if hw.hwScan then
    if !answers.memory then ({w with hwScanReq := none},some .noMem)
    else
      let w := prepareHwScan hw w sdata req
      let w := w.log (.hwScan req.id (w.hwScanReq.getD []) answers.drvHwScan)
      match answers.drvHwScan with
      | none => (w,none)
      | some err => (startFailed w,some err)
  else
    let w : World := {w with scanReq := some req,scanSdata := some sdata}
    if req.channels.map some = [answers.operChan] then
      -- Tuned to the operating channel, and on it until the work runs.
      let w : World := {w with scanning := {w.scanning with onchannelScanning := true}}
      (w.log (.tune req.id (req.channels.head req.nonempty) answers.hwConfig),none)
    else
      let w : World := {w with scanning := {w.scanning with swScanning := true}}
      if hw.useChanctx then (startFailed w,some .opNotSupp)
      else ({w with nextScanState := .decision,scanChannelIdx := 0},none)

def scanStateDecision (req : Request) (round : Round) : ScanState :=
  if round.associated && !round.txEmpty then
    if req.lowPriority then .abort else .suspend
  else if round.associated && round.badLatency then .suspend
  else .setChannel

def machine (req : Request) (round : Nat → Round) : Nat → World → World × Option Bool
  | 0,w => (w,none)
  | rounds + 1,w =>
    let next := machine req (fun k => round (k + 1)) rounds
    if !(round 0).running then (w,some true)
    else
      match w.nextScanState with
      | .decision =>
        if req.channels.length ≤ w.scanChannelIdx then (w,some false)
        else next {w with nextScanState := scanStateDecision req (round 0)}
      | .setChannel =>
        match req.channels[w.scanChannelIdx]? with
        | none => (w,none)
        | some chan =>
          let w := {w.log (.tune req.id chan (round 0).hwConfig) with scanChannelIdx := w.scanChannelIdx + 1}
          if (round 0).hwConfig.isSome then next {w with nextScanState := .decision}
          else if chan.noIr || req.nSsids = 0 then ({w with nextScanState := .decision},none)
          else ({w with nextScanState := .sendProbe},none)
      | .sendProbe => ({w with nextScanState := .decision},none)
      | .suspend => ({w with nextScanState := .resume},none)
      | .resume =>
        if hw.flush then next {w with nextScanState := .setChannel}
        else ({w with nextScanState := .setChannel},none)
      | .abort => (w,some true)

def enough (req : Request) (w : World) : Nat := 2 * (req.channels.length - w.scanChannelIdx) + 3

def scanWork (w : World) (answers : WorkAnswers) : World :=
  if !answers.canRun then scanCompleted hw w true answers.drvHwScan
  else if w.scanning.onchannelScanning then
    scanCompleted hw {w with scanning := {w.scanning with aborted := false}} w.scanning.aborted answers.drvHwScan
  else if w.scanning.completed then
    scanCompleted hw {w with scanning := {w.scanning with completed := false,aborted := false}} w.scanning.aborted answers.drvHwScan
  else
    match w.scanSdata,w.scanReq with
    | some sdata,some req =>
      if w.scanning = notScanning then
        match startScan hw {w with scanReq := none,scanSdata := none} sdata req answers.start with
        | (w,none) => w
        | (w,some _) => scanCompleted hw {w with scanReq := some req} true answers.drvHwScan
      else
        match machine hw req answers.round (enough req w) w with
        | (w,none) => w
        | (w,some aborted) => scanCompleted hw w aborted answers.drvHwScan
    | _,_ => w

def requestScan (w : World) (sdata : Nat) (req : Request) (answers : StartAnswers) : World × Option Errno :=
  let req := {req with id := some w.requests.length}
  let (w,res) := startScan hw w sdata req answers
  ({w with requests := w.requests ++ [(req,res)]},res)

def requestIbssScan (w : World) (sdata : Nat) (channels : Option (List Channel)) (answers : StartAnswers) : World × Option Errno :=
  if w.scanReq.isSome then (w,some .busy)
  else
    let usable := (channels.getD hw.wiphyChannels).filter fun channel => !channel.noIr && !channel.disabled
    if nonempty : usable ≠ [] then startScan hw w sdata ⟨none,usable,1,false,nonempty⟩ answers else (w,some .busy)

def scanCancel (w : World) : World :=
  match w.scanReq with
  | none => w
  | some req =>
    let w := w.log (.cancelled req.id)
    if w.scanning.hwScanning && w.scanning.completed then {w with scanning := {w.scanning with hwCancelled := true}}
    else if w.scanning.hwScanning then {w with scanning := {w.scanning with hwCancelled := true}}
    else scanCompleted hw w true none

def driverCompleted (w : World) (aborted : Bool) : World :=
  {w with scanning := {w.scanning with completed := true,aborted := aborted || w.scanning.aborted}}

inductive Event where
  | scan (sdata : Nat) (req : Request) (answers : StartAnswers)
  | ibssScan (sdata : Nat) (channels : Option (List Channel)) (answers : StartAnswers)
  | cancel
  | completed (aborted : Bool)
  | work (answers : WorkAnswers)

def step (w : World) : Event → World
  | .scan sdata req answers => (requestScan hw w sdata req answers).1
  | .ibssScan sdata channels answers => (requestIbssScan hw w sdata channels answers).1
  | .cancel => scanCancel hw w
  | .completed aborted => driverCompleted w aborted
  | .work answers => scanWork hw w answers

def run (w : World) (events : List Event) : World := events.foldl (step hw) w

def start : World := ⟨none,none,none,[],notScanning,.decision,0,[],[]⟩

end scan

end Mac80211.Scan

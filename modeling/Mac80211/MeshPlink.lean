import Mac80211.Ieee80211

namespace Mac80211.MeshPlink
open Ieee80211

inductive PlinkState where
  | listen | opnSnt | opnRcvd | cnfRcvd | estab | holding | blocked
deriving DecidableEq

inductive PlinkEvent where
  | undefined | opnAcpt | opnRjct | opnIgnr | cnfAcpt | cnfRjct | cnfIgnr | clsAcpt | clsIgnr
deriving DecidableEq

inductive ActionCode where
  | peeringOpen | peeringConfirm | peeringClose
deriving DecidableEq

inductive Reason where
  | zero | peerCanceled | meshConfig | meshClose | maxRetries | confirmTimeout
deriving DecidableEq

-- A timer that has expired is not pending any more, and its handler runs later.
structure TimerList where
  pending : Bool
  expires : Nat
  running : Bool
deriving DecidableEq

-- It is listed until the first part of its destruction and freed by the second.
inductive Phase where
  | listed | unlinked | freed
deriving DecidableEq

structure StaInfo where
  addr : EthAddr
  auth : Bool
  signal : Int
  plinkState : PlinkState
  llid : UInt16
  plid : UInt16
  reason : Reason
  plinkRetries : UInt8
  plinkTimeout : UInt32
  plinkTimer : TimerList
  phase : Phase
deriving DecidableEq

structure MeshConfig where
  retryTimeout : UInt16
  confirmTimeout : UInt16
  holdingTimeout : UInt16
  maxRetries : UInt8
  maxPeerLinks : UInt16
  rssiThreshold : Int
  autoOpenPlinks : Bool
deriving DecidableEq

structure Sdata where
  addr : EthAddr
  mshcfg : MeshConfig
  userMpm : Bool
  security : UInt8
  meshId : List UInt8
  meshPpId : UInt8
  meshPmId : UInt8
  meshCcId : UInt8
  meshSpId : UInt8
  meshAuthId : UInt8
  basicRates : UInt32
  estabPlinks : Int
  acceptingPlinks : Bool
deriving DecidableEq

structure MeshconfIe where
  psel : UInt8
  pmetric : UInt8
  congest : UInt8
  synch : UInt8
  auth : UInt8
  cap : UInt8

structure Elems where
  peering : Option (List UInt8)
  rsn : Bool
  meshId : Option (List UInt8)
  meshConfig : Option MeshconfIe
  basicRates : UInt32
  chandefCompatible : Bool

def Elems.peeringLen (elems : Elems) : Nat := (elems.peering.getD []).length

structure PeeringFrame where
  sa : EthAddr
  da : EthAddr
  action : ActionCode
  elems : Elems

structure Sent where
  action : ActionCode
  da : EthAddr
  llid : UInt16
  plid : UInt16
  reason : Reason
deriving DecidableEq

-- jiffies does not wrap here.
structure Kernel where
  jiffies : Nat
  hz : Nat
  quiescing : Bool
deriving DecidableEq

def msecsToJiffies (hz msecs : Nat) : Nat := (msecs * hz + 999) / 1000

-- One station, the llids of local->sta_list, the frames sent, and whether add_timer was called on a pending
-- timer.
structure Peer where
  kernel : Kernel
  numSta : Nat
  llids : List UInt16
  sdata : Sdata
  sta : StaInfo
  sent : List Sent
  bugged : Bool

def meshMaxPlinks : Nat := 256
def maxAid : UInt16 := 2007

def meshPlinkFreeCount (sdata : Sdata) : Int := sdata.mshcfg.maxPeerLinks.toNat - sdata.estabPlinks

def meshPlinkAvailables (sdata : Sdata) (numSta : Nat) : Bool :=
  decide (min (meshPlinkFreeCount sdata) (meshMaxPlinks - numSta) > 0)

def meshAcceptPlinksUpdate (sdata : Sdata) (numSta : Nat) : Sdata :=
  {sdata with acceptingPlinks := meshPlinkAvailables sdata numSta}

def Peer.incEstabCount (p : Peer) : Peer :=
  {p with sdata := meshAcceptPlinksUpdate {p.sdata with estabPlinks := p.sdata.estabPlinks + 1} p.numSta}

def Peer.decEstabCount (p : Peer) : Peer :=
  {p with sdata := meshAcceptPlinksUpdate {p.sdata with estabPlinks := p.sdata.estabPlinks - 1} p.numSta}

def Peer.setState (p : Peer) (state : PlinkState) : Peer := {p with sta := {p.sta with plinkState := state}}
def Peer.setReason (p : Peer) (reason : Reason) : Peer := {p with sta := {p.sta with reason := reason}}
def Peer.setLlid (p : Peer) (llid : UInt16) : Peer := {p with sta := {p.sta with llid := llid}}
def Peer.setPlid (p : Peer) (plid : UInt16) : Peer := {p with sta := {p.sta with plid := plid}}
def Peer.setTimer (p : Peer) (timer : TimerList) : Peer := {p with sta := {p.sta with plinkTimer := timer}}

def Peer.modPlinkTimer (p : Peer) (msecs : Nat) : Peer :=
  p.setTimer {p.sta.plinkTimer with pending := true,expires := p.kernel.jiffies + msecsToJiffies p.kernel.hz msecs}

def Peer.delTimer (p : Peer) : Peer := p.setTimer {p.sta.plinkTimer with pending := false}

def Peer.meshPlinkTimerSet (p : Peer) (timeout : UInt16) : Peer :=
  {({p with sta := {p.sta with plinkTimeout := timeout.toUInt32}} : Peer).modPlinkTimer timeout.toNat with
    bugged := p.bugged || p.sta.plinkTimer.pending}

def Peer.frameTx (p : Peer) (action : ActionCode) (llid plid : UInt16) (reason : Reason) : Peer :=
  {p with sent := p.sent ++ [⟨action,p.sta.addr,llid,plid,reason⟩]}

def Peer.meshPlinkFsmRestart (p : Peer) : Peer :=
  {p with sta := {p.sta with plinkState := .listen,llid := 0,plid := 0,reason := .zero,plinkRetries := 0}}

def Peer.deactivate (p : Peer) : Peer :=
  (if p.sta.plinkState == .estab then p.decEstabCount else p).setState .blocked

def Peer.meshPlinkDeactivate (p : Peer) : Peer :=
  let p := p.deactivate.setReason .peerCanceled
  p.frameTx .peeringClose p.sta.llid p.sta.plid p.sta.reason

def Peer.meshPlinkBlock (p : Peer) : Peer := p.deactivate.setState .blocked

def Peer.meshGetNewLlid (p : Peer) (draws : List UInt16) : Option UInt16 :=
  (draws.map fun draw => draw % maxAid + 1).find? fun llid => !p.llids.contains llid

def Peer.meshPlinkOpen (draws : List UInt16) (p : Peer) : Option Peer :=
  if !p.sta.auth then some p
  else (p.meshGetNewLlid draws).map fun llid =>
    let p := p.setLlid llid
    if p.sta.plinkState != .listen && p.sta.plinkState != .blocked then p
    else
      let p := (p.setState .opnSnt).meshPlinkTimerSet p.sdata.mshcfg.retryTimeout
      p.frameTx .peeringOpen p.sta.llid 0 .zero

def Peer.meshPlinkClose (p : Peer) (event : PlinkEvent) : Peer :=
  ((p.setReason (if event == .clsAcpt then .meshClose else .meshConfig)).setState .holding).modPlinkTimer
    p.sdata.mshcfg.holdingTimeout.toNat

def Peer.meshPlinkEstablish (p : Peer) : Peer := (p.delTimer.setState .estab).incEstabCount

def Peer.answer (p : Peer) (action : ActionCode) : Peer :=
  let p := p.frameTx action p.sta.llid p.sta.plid p.sta.reason
  if action == .peeringOpen then p.frameTx .peeringConfirm p.sta.llid p.sta.plid .zero else p

def Peer.meshPlinkFsm (event : PlinkEvent) (draws : List UInt16) (p : Peer) : Option Peer :=
  match p.sta.plinkState,event with
  | .listen,.clsAcpt => some p.meshPlinkFsmRestart
  | .listen,.opnAcpt =>
    (p.meshGetNewLlid draws).map fun llid =>
      (((p.setState .opnRcvd).setLlid llid).meshPlinkTimerSet p.sdata.mshcfg.retryTimeout).answer .peeringOpen
  | .opnSnt,.opnAcpt => some ((p.setState .opnRcvd).answer .peeringConfirm)
  | .opnSnt,.cnfAcpt => some ((p.setState .cnfRcvd).modPlinkTimer p.sdata.mshcfg.confirmTimeout.toNat)
  | .opnRcvd,.opnAcpt => some (p.answer .peeringConfirm)
  | .opnRcvd,.cnfAcpt => some p.meshPlinkEstablish
  | .cnfRcvd,.opnAcpt => some (p.meshPlinkEstablish.answer .peeringConfirm)
  | .opnSnt,.opnRjct | .opnSnt,.cnfRjct | .opnSnt,.clsAcpt
  | .opnRcvd,.opnRjct | .opnRcvd,.cnfRjct | .opnRcvd,.clsAcpt
  | .cnfRcvd,.opnRjct | .cnfRcvd,.cnfRjct | .cnfRcvd,.clsAcpt =>
    some ((p.meshPlinkClose event).answer .peeringClose)
  | .estab,.clsAcpt => some ((p.deactivate.meshPlinkClose event).answer .peeringClose)
  | .estab,.opnAcpt => some (p.answer .peeringConfirm)
  | .holding,.clsAcpt => some p.delTimer.meshPlinkFsmRestart
  | .holding,.opnAcpt | .holding,.cnfAcpt | .holding,.opnRjct | .holding,.cnfRjct =>
    some (p.answer .peeringClose)
  | _,_ => some p

def Peer.expired (rand : UInt32) (p : Peer) : Peer :=
  match p.sta.plinkState with
  | .opnRcvd | .opnSnt =>
    if p.sta.plinkRetries < p.sdata.mshcfg.maxRetries then
      let timeout := p.sta.plinkTimeout + rand % p.sta.plinkTimeout
      let p := ({p with sta := {p.sta with
        plinkTimeout := timeout,
        plinkRetries := p.sta.plinkRetries + 1}} : Peer).modPlinkTimer timeout.toNat
      p.frameTx .peeringOpen p.sta.llid p.sta.plid .zero
    else
      let p := (p.setState .holding).modPlinkTimer p.sdata.mshcfg.holdingTimeout.toNat
      p.frameTx .peeringClose p.sta.llid p.sta.plid .maxRetries
  | .cnfRcvd =>
    let p := (p.setState .holding).modPlinkTimer p.sdata.mshcfg.holdingTimeout.toNat
    p.frameTx .peeringClose p.sta.llid p.sta.plid .confirmTimeout
  | .holding => p.delTimer.meshPlinkFsmRestart
  | _ => p

def Peer.meshPlinkTimer (rand : UInt32) (p : Peer) : Peer :=
  if p.kernel.quiescing then p
  else if p.kernel.jiffies < p.sta.plinkTimer.expires then p
  else if p.sta.plinkState == .listen || p.sta.plinkState == .estab then p
  else p.expired rand

-- A handler that waits for the lock finds the link blocked and does nothing.
def Peer.meshStaCleanup (p : Peer) : Peer :=
  let p := {p with sdata := meshAcceptPlinksUpdate p.sdata p.numSta}
  if !p.sdata.userMpm then
    let p := p.meshPlinkDeactivate
    p.setTimer {p.sta.plinkTimer with pending := false,running := false}
  else p

def rssiThresholdCheck (sdata : Sdata) (sta : Option StaInfo) : Bool :=
  sdata.mshcfg.rssiThreshold == 0 || sta.any fun sta => decide (sta.signal > sdata.mshcfg.rssiThreshold)

def meshMatchesLocal (sdata : Sdata) (ie : Elems) : Bool :=
  match ie.meshConfig with
  | none => false
  | some config =>
    sdata.meshId == ie.meshId.getD [] &&
    sdata.meshPpId == config.psel &&
    sdata.meshPmId == config.pmetric &&
    sdata.meshCcId == config.congest &&
    sdata.meshSpId == config.synch &&
    sdata.meshAuthId == config.auth &&
    sdata.basicRates == ie.basicRates &&
    ie.chandefCompatible

def meshPeerAcceptsPlinks (ie : Elems) : Bool := ie.meshConfig.any fun config => config.cap &&& 0x01 != 0

-- Of an open or a confirm the second assignment overrides the first's rejection.
def meshPlinkGetEvent (sdata : Sdata) (sta : Option StaInfo) (elems : Elems) (ftype : ActionCode)
    (llid plid : UInt16) : PlinkEvent :=
  let matchesLocal := ftype == .peeringClose || meshMatchesLocal sdata elems
  match sta with
  | none =>
    if !matchesLocal then .opnRjct
    else if ftype != .peeringOpen then .undefined
    else if meshPlinkFreeCount sdata == 0 then .undefined
    else .opnAcpt
  | some sta =>
    if !sta.auth then .undefined
    else if sta.plinkState == .blocked then .undefined
    else match ftype with
      | .peeringOpen =>
        let _event := if !matchesLocal then PlinkEvent.opnRjct else .undefined
        if meshPlinkFreeCount sdata == 0 || sta.plid != 0 && sta.plid != plid then .opnIgnr
        else .opnAcpt
      | .peeringConfirm =>
        let _event := if !matchesLocal then PlinkEvent.cnfRjct else .undefined
        if meshPlinkFreeCount sdata == 0 || sta.llid != llid || sta.plid != 0 && sta.plid != plid then .cnfIgnr
        else .cnfAcpt
      | .peeringClose =>
        if sta.plinkState == .estab then .clsAcpt
        else if sta.plid != plid then .clsIgnr
        else if elems.peeringLen == 8 && sta.llid != llid then .clsIgnr
        else .clsAcpt

structure World where
  kernel : Kernel
  others : List UInt16
  sdata : Sdata
  stations : List StaInfo
  sent : List Sent
  bugged : Bool
deriving DecidableEq

def World.numSta (w : World) : Nat := w.others.length + w.stations.countP fun sta => sta.phase != .freed

def World.staList (w : World) : List UInt16 :=
  (w.stations.filter fun sta => sta.phase == .listed).map (·.llid) ++ w.others

def World.peer (w : World) (sta : StaInfo) : Peer :=
  ⟨w.kernel,w.numSta,w.staList,w.sdata,sta,w.sent,w.bugged⟩

def World.put (w : World) (i : Nat) (p : Peer) : World :=
  {w with sdata := p.sdata,stations := w.stations.set i p.sta,sent := p.sent,bugged := p.bugged}

def World.on (w : World) (i : Nat) (f : Peer → Option Peer) : Option World :=
  (w.stations[i]?).bind fun sta => (f (w.peer sta)).map (w.put i)

def World.staInfoGet (w : World) (addr : EthAddr) : Option Nat :=
  w.stations.findIdx? fun sta => sta.phase == .listed && sta.addr == addr

structure Room where
  memory : Bool
  running : Bool
  driver : Bool

def newSta (addr : EthAddr) (auth : Bool) : StaInfo :=
  ⟨addr,auth,0,.listen,0,0,.zero,0,0,⟨false,0,false⟩,.listed⟩

def World.add (w : World) (sta : StaInfo) : World := {w with stations := w.stations ++ [sta]}

def World.staInfoInsert (w : World) (sta : StaInfo) (room : Room) : World × Option Nat :=
  if !room.running then (w,none)
  else if sta.addr == w.sdata.addr || isMulticastEtherAddr sta.addr then (w,none)
  else if (w.staInfoGet sta.addr).isSome then (w,none)
  else if room.driver then
    let w' := w.add sta
    ({w' with sdata := meshAcceptPlinksUpdate w'.sdata w'.numSta},some w.stations.length)
  else
    let w' := w.add {sta with phase := .freed}
    (w'.put w.stations.length (w'.peer {sta with phase := .freed}).meshStaCleanup,none)

def World.meshStaInfoAlloc (w : World) (addr : EthAddr) (room : Room) : World × Option Nat :=
  if w.sdata.userMpm || w.sdata.security &&& 0x1 != 0 then (w,none)
  else if w.numSta ≥ meshMaxPlinks || !room.memory then (w,none)
  else w.staInfoInsert (newSta addr true) room

def World.meshStaInfoGet (w : World) (addr : EthAddr) (room : Room) : World × Option Nat :=
  match w.staInfoGet addr with
  | some i => (w,some i)
  | none => w.meshStaInfoAlloc addr room

def World.meshNeighbourUpdate (w : World) (hwAddr : EthAddr) (elems : Elems) (room : Room) (draws : List UInt16) :
    Option World :=
  match w.meshStaInfoGet hwAddr room with
  | (w,none) => some w
  | (w,some i) =>
    w.on i fun p =>
      if meshPeerAcceptsPlinks elems && p.sta.plinkState == .listen && p.sdata.acceptingPlinks &&
          p.sdata.mshcfg.autoOpenPlinks && rssiThresholdCheck p.sdata (some p.sta) then
        p.meshPlinkOpen draws
      else some p

def getUnalignedLe16 (bytes : List UInt8) (at' : Nat) : UInt16 :=
  (bytes.getD at' 0).toUInt16 ||| (bytes.getD (at' + 1) 0).toUInt16 <<< 8

def ActionCode.fits (ftype : ActionCode) (len : Nat) : Bool :=
  match ftype with
  | .peeringOpen => len == 4
  | .peeringConfirm => len == 6
  | .peeringClose => len == 6 || len == 8

def PeeringFrame.plid (rx : PeeringFrame) : UInt16 := getUnalignedLe16 (rx.elems.peering.getD []) 2
def PeeringFrame.llid (rx : PeeringFrame) : UInt16 :=
  if rx.action == .peeringConfirm || rx.action == .peeringClose && rx.elems.peeringLen == 8 then
    getUnalignedLe16 (rx.elems.peering.getD []) 4
  else 0

def PeeringFrame.complete (rx : PeeringFrame) (sdata : Sdata) : Bool :=
  rx.elems.peering.isSome && !(rx.elems.rsn && sdata.security == 0) && rx.action.fits rx.elems.peeringLen &&
  (rx.action == .peeringClose || rx.elems.meshId.isSome && rx.elems.meshConfig.isSome)

def World.meshProcessPlinkFrame (w : World) (rx : PeeringFrame) (room : Room) (draws : List UInt16) : Option World :=
  if !rx.complete w.sdata then some w
  else
    let found := w.staInfoGet rx.sa
    let sta := found.bind (w.stations[·]?)
    if rx.action == .peeringOpen && !rssiThresholdCheck w.sdata sta then some w
    else
      let event := meshPlinkGetEvent w.sdata sta rx.elems rx.action rx.llid rx.plid
      if event == .opnAcpt then
        match w.meshStaInfoGet rx.sa room with
        | (w,none) => some w
        | (w,some i) => w.on i fun p => (p.setPlid rx.plid).meshPlinkFsm event draws
      else
        match found with
        | none =>
          if event == .opnRjct then
            some {w with sent := w.sent ++ [⟨.peeringClose,rx.sa,0,rx.plid,.meshConfig⟩]}
          else some w
        | some i =>
          if event == .undefined then some w
          else w.on i fun p =>
            (if p.sta.plid == 0 && event == .cnfAcpt then p.setPlid rx.plid else p).meshPlinkFsm event draws

def World.meshRxPlinkFrame (w : World) (rx : PeeringFrame) (room : Room) (draws : List UInt16) : Option World :=
  if w.sdata.userMpm then some w
  else if isMulticastEtherAddr rx.da then some w
  else w.meshProcessPlinkFrame rx room draws

inductive Event where
  | frame (rx : PeeringFrame) (room : Room) (draws : List UInt16)
  | beacon (sa : EthAddr) (elems : Elems) (room : Room) (draws : List UInt16)
  | plinkOpen (i : Nat) (draws : List UInt16)
  | plinkBlock (i : Nat)
  | plinkDeactivate (i : Nat)
  | addStation (addr : EthAddr) (auth : Bool) (room : Room)
  | setAuth (i : Nat) (auth : Bool)
  | setSignal (i : Nat) (signal : Int)
  | unlink (i : Nat)
  | destroy (i : Nat)
  | expire (i : Nat)
  | handler (i : Nat) (rand : UInt32)
  | tick (jiffies : Nat)
  | quiesce (quiescing : Bool)
  | config (mshcfg : MeshConfig)
  | stations (others : List UInt16)

def Peer.when (test : StaInfo → Bool) (f : Peer → Option Peer) (p : Peer) : Option Peer :=
  if test p.sta then f p else none

def StaInfo.listed (sta : StaInfo) : Bool := sta.phase == .listed
def StaInfo.alive (sta : StaInfo) : Bool := sta.phase != .freed

def Peer.setPhase (p : Peer) (phase : Phase) : Peer := {p with sta := {p.sta with phase := phase}}
def Peer.setRunning (p : Peer) (running : Bool) : Peer := p.setTimer {p.sta.plinkTimer with running := running}

-- One handler of a timer at a time.
def Peer.expire (p : Peer) : Peer := (p.delTimer).setRunning true

def Peer.due (p : Peer) : Bool :=
  p.sta.plinkTimer.pending && decide (p.sta.plinkTimer.expires ≤ p.kernel.jiffies) && !p.sta.plinkTimer.running

def step : Event → World → Option World
  | .frame rx room draws,w => w.meshRxPlinkFrame rx room draws
  | .beacon sa elems room draws,w =>
    if meshMatchesLocal w.sdata elems then w.meshNeighbourUpdate sa elems room draws else some w
  | .plinkOpen i draws,w => w.on i (Peer.when StaInfo.listed (Peer.meshPlinkOpen draws))
  | .plinkBlock i,w => w.on i (Peer.when StaInfo.listed fun p => some p.meshPlinkBlock)
  | .plinkDeactivate i,w => w.on i (Peer.when StaInfo.alive fun p => some p.meshPlinkDeactivate)
  | .addStation addr auth room,w => some (w.staInfoInsert (newSta addr auth) room).1
  | .setAuth i auth,w =>
    w.on i (Peer.when StaInfo.alive fun p => some {p with sta := {p.sta with auth := auth}})
  | .setSignal i signal,w =>
    w.on i (Peer.when StaInfo.alive fun p => some {p with sta := {p.sta with signal := signal}})
  | .unlink i,w => w.on i (Peer.when StaInfo.listed fun p => some (p.setPhase .unlinked))
  | .destroy i,w =>
    w.on i (Peer.when (fun sta => sta.phase == .unlinked) fun p =>
      some ({p with numSta := p.numSta - 1} : Peer).meshStaCleanup |>.map (·.setPhase .freed))
  | .expire i,w =>
    w.on i (Peer.when StaInfo.alive fun p => if p.due then some p.expire else none)
  | .handler i rand,w =>
    w.on i (Peer.when StaInfo.alive fun p =>
      if p.sta.plinkTimer.running then some ((p.setRunning false).meshPlinkTimer rand) else none)
  | .tick jiffies,w => if w.kernel.jiffies ≤ jiffies then some {w with kernel := {w.kernel with jiffies := jiffies}} else none
  | .quiesce quiescing,w => some {w with kernel := {w.kernel with quiescing := quiescing}}
  | .config mshcfg,w => some {w with sdata := {w.sdata with mshcfg := mshcfg}}
  | .stations others,w => some {w with others := others}

def World.Initial (w : World) : Prop :=
  w.stations = [] ∧ w.sdata.estabPlinks = 0 ∧ w.bugged = false

inductive Reach (start : World) : World → Prop where
  | refl : Reach start start
  | step (prior : Reach start w) (ran : step e w = some w') : Reach start w'

def run (events : List Event) (w : World) : Option World := events.foldlM (fun w e => step e w) w

def sampleMesh : World where
  kernel := ⟨1000,250,false⟩
  others := []
  sdata := {
    addr := macAddr 2 0 0 0 0 1,
    mshcfg := ⟨100,100,100,3,99,0,false⟩,
    userMpm := false,
    security := 0,
    meshId := [109,101,115,104],
    meshPpId := 1,
    meshPmId := 1,
    meshCcId := 0,
    meshSpId := 1,
    meshAuthId := 0,
    basicRates := 0x150,
    estabPlinks := 0,
    acceptingPlinks := true}
  stations := []
  sent := []
  bugged := false

def sampleRoom : Room := ⟨true,true,true⟩
def samplePeer : EthAddr := macAddr 2 0 0 0 0 2

def sampleElems (meshId peering : List UInt8) : Elems :=
  ⟨some peering,false,some meshId,some ⟨1,1,0,1,0,1⟩,0x150,true⟩

def sampleOpen (meshId : List UInt8) : PeeringFrame :=
  ⟨samplePeer,sampleMesh.sdata.addr,.peeringOpen,sampleElems meshId [0,0,34,0]⟩

def sampleConfirm (meshId : List UInt8) : PeeringFrame :=
  ⟨samplePeer,sampleMesh.sdata.addr,.peeringConfirm,sampleElems meshId [0,0,34,0,17,0]⟩

def samplePeering (meshId : List UInt8) : List Event :=
  [.beacon samplePeer (sampleElems sampleMesh.sdata.meshId []) sampleRoom [],
    .frame (sampleOpen meshId) sampleRoom [16],
    .frame (sampleConfirm meshId) sampleRoom []]

def sampleWorld (events : List Event) : World := (run events sampleMesh).getD sampleMesh

def sampleAsked : List Event := [.addStation samplePeer true sampleRoom,.plinkOpen 0 [16]]

theorem sample_added : step (.addStation samplePeer true sampleRoom) sampleMesh = some (sampleWorld (sampleAsked.take 1)) := by
  decide

theorem sample_opened : step (.plinkOpen 0 [16]) (sampleWorld (sampleAsked.take 1)) = some (sampleWorld sampleAsked) := by
  decide

end Mac80211.MeshPlink

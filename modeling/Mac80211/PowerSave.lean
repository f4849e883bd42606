import Mac80211.Ieee80211
import Mac80211.RxReorder
import Mac80211.Transitions

namespace Mac80211.PowerSave
open Ieee80211
open RxReorder (Jiffies timeAfter)

inductive Ac where
  | vo | vi | be | bk
deriving DecidableEq

def Ac.bit : Ac → UInt8
  | .vo => 1
  | .vi => 2
  | .be => 4
  | .bk => 8

def Ac.tids : Ac → UInt16
  | .vo => 0x00c0
  | .vi => 0x0030
  | .be => 0x0009
  | .bk => 0x0006

def Ac.all : List Ac := [.vo,.vi,.be,.bk]

structure Acs (α : Type) where
  vo : List α
  vi : List α
  be : List α
  bk : List α
deriving DecidableEq

def Acs.empty : Acs α := ⟨[],[],[],[]⟩

def Acs.get (q : Acs α) : Ac → List α
  | .vo => q.vo
  | .vi => q.vi
  | .be => q.be
  | .bk => q.bk

def Acs.set (q : Acs α) (ac : Ac) (frames : List α) : Acs α :=
  match ac with
  | .vo => {q with vo := frames}
  | .vi => {q with vi := frames}
  | .be => {q with be := frames}
  | .bk => {q with bk := frames}

def Acs.all (q : Acs α) : List α := q.vo ++ q.vi ++ q.be ++ q.bk
def Acs.len (q : Acs α) : Nat := q.vo.length + q.vi.length + q.be.length + q.bk.length

structure Skb where
  dev : Nat
  frameControl : UInt16
  ac : Ac
  len : Nat
  jiffies : Jiffies
  noPsBuffer : Bool
deriving DecidableEq

def isProbeReq (fc : UInt16) : Bool := fc &&& (fctlFtype ||| fctlStype) == 0x0040
def isBufferableMmpdu (fc : UInt16) : Bool := isAction fc || isDisassoc fc || isDeauth fc
def isQosNullfunc (fc : UInt16) : Bool := fc &&& (fctlFtype ||| fctlStype) == 0x00c8
def isPspoll (fc : UInt16) : Bool := fc &&& (fctlFtype ||| fctlStype) == 0x00a4
def hasPm (fc : UInt16) : Bool := fc &&& fctlPm != 0

inductive IfType where
  | ap | apVlan | meshPoint | other
deriving DecidableEq

def IfType.bssOrVlan (type : IfType) : Bool := type == .ap || type == .apVlan

inductive Phase where
  | listed | unlinked | freed
deriving DecidableEq

-- ps: the place of the ps_data. asleep is not in the code: the station has entered power save and not
-- completed waking up.
structure StaInfo where
  type : IfType
  ps : Nat
  psSta : Bool
  psDriver : Bool
  psDeliver : Bool
  pspoll : Bool
  uapsd : Bool
  sp : Bool
  uapsdQueues : UInt8
  maxSp : UInt8
  driverBufferedTids : UInt16
  txqBufferedTids : UInt16
  listenInterval : UInt16
  beaconInt : UInt16
  psTxBuf : Acs Skb
  txFiltered : Acs Skb
  deliverWk : Bool
  dead : Bool
  phase : Phase
  asleep : Bool
deriving DecidableEq

-- And whether its group frames may be sent.
structure PsData where
  type : IfType
  bcBuf : List Skb
  numStaPs : Int
  dtimCount : Nat
  dtimBcMc : Bool
  chanctx : Bool
  beacon : Bool
deriving DecidableEq

-- The interfaces are those with a ps_data; the stations of an AP_VLAN use that of its AP. pending is
-- local->pending.
structure World where
  hz : UInt16
  jiffies : Jiffies
  apLinkPs : Bool
  hostBroadcastPsBuffering : Bool
  totalPsBuffered : Int
  interfaces : List PsData
  stations : List StaInfo
  pending : List Skb
deriving DecidableEq

def totalMaxTxBuffer : Int := 512
def staMaxTxBuffer : Nat := 64
def apMaxBcBuffer : Nat := 128

def World.setSta (w : World) (i : Nat) (sta : StaInfo) : World := {w with stations := w.stations.set i sta}
def World.setPs (w : World) (b : Nat) (ps : PsData) : World := {w with interfaces := w.interfaces.set b ps}

def World.addNumStaPs (w : World) (b : Nat) (change : Int) : World :=
  match w.interfaces[b]? with
  | none => w
  | some ps => w.setPs b {ps with numStaPs := ps.numStaPs + change}

-- One frame of the lowest priority that has some; queues of higher priority are neither looked at nor
-- counted then.
def purgeAcs : List Ac → Acs Skb → Acs Skb × Nat
  | [],q => (q,0)
  | ac :: rest,q =>
    match q.get ac with
    | [] => purgeAcs rest q
    | _ :: left => (q.set ac left,left.length)

def StaInfo.purged (sta : StaInfo) : StaInfo :=
  if sta.phase == .listed then {sta with psTxBuf := (purgeAcs Ac.all.reverse sta.psTxBuf).1} else sta

def StaInfo.purgeCount (sta : StaInfo) : Nat :=
  if sta.phase == .listed then (purgeAcs Ac.all.reverse sta.psTxBuf).2 else 0

def World.purgeOldPsBuffers (w : World) : World :=
  {w with
    interfaces := w.interfaces.map fun ps => {ps with bcBuf := ps.bcBuf.tail},
    stations := w.stations.map StaInfo.purged,
    totalPsBuffered := ((w.interfaces.map fun ps => ps.bcBuf.tail.length).sum + (w.stations.map StaInfo.purgeCount).sum : Nat)}

inductive TxResult where
  | goOn | queued

def World.makeRoom (w : World) : World :=
  if w.totalPsBuffered ≥ totalMaxTxBuffer then w.purgeOldPsBuffers else w

def World.queueBc (w : World) (b : Nat) (ps : PsData) (skb : Skb) : World :=
  if ps.bcBuf.length ≥ apMaxBcBuffer then w.setPs b {ps with bcBuf := ps.bcBuf.tail ++ [skb]}
  else {w.setPs b {ps with bcBuf := ps.bcBuf ++ [skb]} with totalPsBuffered := w.totalPsBuffered + 1}

def World.txHMulticastPsBuf (w : World) (b : Nat) (skb : Skb) : World × TxResult :=
  match w.interfaces[b]? with
  | none => (w,.goOn)
  | some ps =>
    if hasOrder skb.frameControl then (w,.goOn)
    else if isProbeReq skb.frameControl then (w,.goOn)
    else if ps.numStaPs == 0 then (w,.goOn)
    else if !w.hostBroadcastPsBuffering then (w,.goOn)
    else
      let w := w.makeRoom
      match w.interfaces[b]? with
      | none => (w,.goOn)
      | some ps => (w.queueBc b ps skb,.queued)

def StaInfo.blocked (sta : StaInfo) : Bool := sta.psSta || sta.psDriver || sta.psDeliver

def World.queueUc (w : World) (i : Nat) (sta : StaInfo) (skb : Skb) : World :=
  let old := sta.psTxBuf.get skb.ac
  if old.length ≥ staMaxTxBuffer then
    w.setSta i {sta with psTxBuf := sta.psTxBuf.set skb.ac (old.tail ++ [{skb with jiffies := w.jiffies}])}
  else
    {w.setSta i {sta with psTxBuf := sta.psTxBuf.set skb.ac (old ++ [{skb with jiffies := w.jiffies}])} with
      totalPsBuffered := w.totalPsBuffered + 1}

def World.txHUnicastPsBuf (w : World) (i : Nat) (sta : StaInfo) (skb : Skb) : World × TxResult :=
  if sta.blocked && !skb.noPsBuffer then
    if isMgmt skb.frameControl && !isBufferableMmpdu skb.frameControl then (w,.goOn)
    else
      let w := w.makeRoom
      match w.stations[i]? with
      | none => (w,.goOn)
      | some sta => (w.queueUc i sta skb,.queued)
  else (w,.goOn)

def StaInfo.ps? (sta : StaInfo) : Option Nat := if sta.type == .other then none else some sta.ps

def StaInfo.delivered (sta : StaInfo) : StaInfo :=
  {sta with
    sp := false,
    driverBufferedTids := 0,
    txqBufferedTids := 0,
    txFiltered := .empty,
    psTxBuf := .empty,
    psDeliver := false,
    pspoll := false,
    uapsd := false,
    asleep := false}

def StaInfo.buffered (sta : StaInfo) : List Skb := Ac.all.flatMap fun ac => sta.txFiltered.get ac ++ sta.psTxBuf.get ac

def World.staPsDeliverWakeup (w : World) (i : Nat) (sta : StaInfo) : World :=
  match sta.ps? with
  | none => w
  | some b =>
    {(w.setSta i sta.delivered).addNumStaPs b (-1) with
      totalPsBuffered := w.totalPsBuffered - sta.psTxBuf.len,
      pending := w.pending ++ sta.buffered}

def World.staPsStart (w : World) (i : Nat) (sta : StaInfo) (txq : Option UInt16) : World :=
  if sta.type.bssOrVlan then
    (w.addNumStaPs sta.ps 1).setSta i {sta with psSta := true,txqBufferedTids := txq.getD sta.txqBufferedTids,asleep := true}
  else w

def World.staPsEnd (w : World) (i : Nat) (sta : StaInfo) : World :=
  if sta.psDriver then w.setSta i {sta with psSta := false}
  else
    let sta := {sta with psDeliver := true,psSta := false}
    (w.setSta i sta).staPsDeliverWakeup i sta

def World.staPsTransition (w : World) (i : Nat) (sta : StaInfo) (start : Bool) (txq : Option UInt16) : World :=
  if sta.psSta == start then w
  else if start then w.staPsStart i sta txq
  else w.staPsEnd i sta

def World.rxHStaProcess (w : World) (i : Nat) (sta : StaInfo) (fc : UInt16) (txq : Option UInt16) : World :=
  if !w.apLinkPs && !hasMoreFrags fc && sta.type.bssOrVlan && (!isMgmt fc || isBufferableMmpdu fc) then
    if sta.psSta then (if !hasPm fc then w.staPsEnd i sta else w)
    else (if hasPm fc then w.staPsStart i sta txq else w)
  else w

-- And the number taken from ps_tx_buf.
structure Taken where
  frames : List Skb
  filtered : List Skb
  buffered : List Skb
  released : Nat

def takeFrames : Nat → List Skb → List Skb → Taken
  | 0,filtered,buffered => ⟨[],filtered,buffered,0⟩
  | n + 1,skb :: filtered,buffered =>
    let t := takeFrames n filtered buffered
    {t with frames := skb :: t.frames}
  | n + 1,[],skb :: buffered =>
    let t := takeFrames n [] buffered
    {t with frames := skb :: t.frames,released := t.released + 1}
  | _ + 1,[],[] => ⟨[],[],[],0⟩

structure Release where
  nFrames : Nat
  driverTids : UInt16
  frames : List Skb
  filtered : Acs Skb
  buffered : Acs Skb
  released : Nat
  moreData : Bool

def Release.take (r : Release) (ac : Ac) : Release :=
  let t := takeFrames r.nFrames (r.filtered.get ac) (r.buffered.get ac)
  {r with
    nFrames := r.nFrames - t.frames.length,
    frames := r.frames ++ t.frames,
    filtered := r.filtered.set ac t.filtered,
    buffered := r.buffered.set ac t.buffered,
    released := r.released + t.released}

-- The driver cannot release frames of several TIDs for one poll.
def releaseAcs (tids : UInt16) (ignoredAcs : UInt8) (pspoll : Bool) : List Ac → Release → Release
  | [],r => r
  | ac :: rest,r =>
    if ignoredAcs &&& ac.bit != 0 then releaseAcs tids ignoredAcs pspoll rest r
    else
      let driverTids := if r.frames.isEmpty then r.driverTids ||| tids &&& ac.tids else r.driverTids
      let r := {r with driverTids := driverTids}
      if driverTids != 0 && pspoll && driverTids &&& (driverTids - 1) != 0 then {r with moreData := true}
      else
        let r := if driverTids != 0 then r else r.take ac
        if !(r.filtered.get ac).isEmpty || !(r.buffered.get ac).isEmpty then {r with moreData := true}
        else releaseAcs tids ignoredAcs pspoll rest r

def Skb.respond (skb : Skb) (moreData : Bool) : Skb :=
  {skb with
    noPsBuffer := true,
    frameControl := if moreData then skb.frameControl ||| fctlMoreData else skb.frameControl &&& ~~~fctlMoreData}

def respondAll (moreData : Bool) : List Skb → List Skb
  | [] => []
  | skb :: rest => skb.respond (moreData || !rest.isEmpty) :: respondAll moreData rest

-- eosp: in its QoS control field; ends: its status ends the service period.
structure Reply where
  skb : Skb
  qosEosp : Bool
  eosp : Bool

-- And whether a QoS null frame has to end the period; the frame before that one has the bit as well.
def respondFrames (moreData uapsd : Bool) : List Skb → List Reply × Bool
  | [] => ([],false)
  | skb :: rest =>
    let sent := skb.respond (moreData || !rest.isEmpty)
    if !rest.isEmpty then
      let replies := respondFrames moreData uapsd rest
      (⟨sent,false,false⟩ :: replies.1,replies.2)
    else if !uapsd then ([⟨sent,false,true⟩],false)
    else if isDataQos sent.frameControl || isQosNullfunc sent.frameControl then ([⟨sent,true,true⟩],false)
    else ([⟨{sent with frameControl := sent.frameControl ||| fctlMoreData},false,false⟩],true)

def World.staPsDeliverResponse (w : World) (i : Nat) (sta : StaInfo) (nFrames : Nat) (ignoredAcs : UInt8)
    (pspoll : Bool) : World :=
  let r := releaseAcs (sta.driverBufferedTids ||| sta.txqBufferedTids) ignoredAcs pspoll Ac.all
    ⟨nFrames,0,[],sta.txFiltered,sta.psTxBuf,0,false⟩
  {w.setSta i {sta with sp := true,txFiltered := r.filtered,psTxBuf := r.buffered} with
    totalPsBuffered := w.totalPsBuffered - r.released,
    pending := w.pending ++ (respondFrames r.moreData (!pspoll) r.frames).1.map Reply.skb}

def World.staPsDeliverPollResponse (w : World) (i : Nat) (sta : StaInfo) : World :=
  w.staPsDeliverResponse i sta 1 (if sta.uapsdQueues == 15 then 0 else sta.uapsdQueues) true

-- n_frames is sta->sta.max_sp when that is none of 0 to 3.
def StaInfo.spFrames (sta : StaInfo) : Nat :=
  if sta.maxSp == 1 then 2
  else if sta.maxSp == 2 then 4
  else if sta.maxSp == 3 then 6
  else if sta.maxSp == 0 then 128
  else sta.maxSp.toNat

def World.staPsDeliverUapsd (w : World) (i : Nat) (sta : StaInfo) : World :=
  if sta.uapsdQueues == 0 then w
  else w.staPsDeliverResponse i sta sta.spFrames (~~~sta.uapsdQueues) false

-- trigger: a QoS data frame, with its access category.
def World.rxHUapsdAndPspoll (w : World) (i : Nat) (sta : StaInfo) (fc : UInt16) (ac : Ac) : World :=
  if !sta.type.bssOrVlan then w
  else if w.apLinkPs then w
  else if !sta.psSta then w
  else if isPspoll fc then
    if sta.sp then w
    else if !sta.psDriver then w.staPsDeliverPollResponse i sta
    else w.setSta i {sta with pspoll := true}
  else if !hasMoreFrags fc && hasPm fc && isDataQos fc then
    if sta.uapsdQueues &&& ac.bit == 0 then w
    else if sta.sp then w
    else if !sta.psDriver then w.staPsDeliverUapsd i sta
    else w.setSta i {sta with uapsd := true}
  else w

def World.staDeliverPsFrames (w : World) (i : Nat) (sta : StaInfo) : World :=
  if sta.dead then w
  else if !sta.psSta then w.staPsDeliverWakeup i sta
  else if sta.pspoll then
    let sta := {sta with pspoll := false}
    (w.setSta i sta).staPsDeliverPollResponse i sta
  else if sta.uapsd then
    let sta := {sta with uapsd := false}
    (w.setSta i sta).staPsDeliverUapsd i sta
  else w

def StaInfo.blockAwake (sta : StaInfo) (block : Bool) : StaInfo :=
  if block then {sta with psDriver := true}
  else if !sta.psDriver then sta
  else if !sta.psSta then {sta with psDeliver := true,psDriver := false,deliverWk := true}
  else if sta.pspoll || sta.uapsd then {sta with psDriver := false,deliverWk := true}
  else {sta with psDriver := false}

def World.mpsStaStatusUpdate (w : World) (i : Nat) (sta : StaInfo) (doBuffer : Bool) : World :=
  if sta.psSta == doBuffer then w.setSta i {sta with asleep := doBuffer}
  else if doBuffer then (w.addNumStaPs sta.ps 1).setSta i {sta with psSta := true,asleep := true}
  else w.staPsDeliverWakeup i sta

def mpsRelease (nFrames : Option Nat) : List Ac → Release → Release
  | [],r => r
  | ac :: rest,r =>
    let bound := match nFrames with
      | none => (r.filtered.get ac).length + (r.buffered.get ac).length
      | some _ => r.nFrames
    let r := {r with nFrames := bound}.take ac
    mpsRelease nFrames rest
      {r with moreData := r.moreData || !(r.filtered.get ac).isEmpty || !(r.buffered.get ac).isEmpty}

def World.mpsFrameDeliver (w : World) (i : Nat) (sta : StaInfo) (nFrames : Option Nat) : World :=
  let r := mpsRelease nFrames Ac.all ⟨nFrames.getD 0,0,[],sta.txFiltered,sta.psTxBuf,0,false⟩
  {w.setSta i {sta with txFiltered := r.filtered,psTxBuf := r.buffered} with
    totalPsBuffered := w.totalPsBuffered - r.released,
    pending := w.pending ++ respondAll r.moreData r.frames}

def bcLoop (drops : Skb → Bool) : List Skb → List Skb × Nat × Option Skb
  | [] => ([],0,none)
  | skb :: rest =>
    if drops skb then
      let (left,count,sent) := bcLoop drops rest
      (left,count + 1,sent)
    else
      (rest,1,some (if !rest.isEmpty && skb.len ≥ 2 then
        {skb with frameControl := skb.frameControl ||| fctlMoreData} else skb))

def World.getBufferedBc (w : World) (b : Nat) (ps : PsData) (drops : Skb → Bool) : World × Option Skb :=
  if !ps.chanctx then (w,none)
  else if ps.type == .ap && !ps.beacon then (w,none)
  else if ps.dtimCount != 0 || !ps.dtimBcMc then (w,none)
  else
    let (left,count,sent) := bcLoop drops ps.bcBuf
    ({w.setPs b {ps with bcBuf := left} with totalPsBuffered := w.totalPsBuffered - count},sent)

def staTxBufferExpire (hz : UInt16) : Int32 := 10 * .ofNat hz.toNat

-- In int, which wraps.
def bufferExpired (hz : UInt16) (now : Jiffies) (sta : StaInfo) (skb : Skb) : Bool :=
  let timeout : Int32 := .ofNat sta.listenInterval.toNat * .ofNat sta.beaconInt.toNat * 32 / 15625 * .ofNat hz.toNat
  let timeout := if timeout < staTxBufferExpire hz then staTxBufferExpire hz else timeout
  timeAfter now (skb.jiffies + timeout.toInt64.toUInt64)

def Acs.expire (old : Skb → Bool) (q : Acs Skb) : Acs Skb :=
  ⟨q.vo.dropWhile old,q.vi.dropWhile old,q.be.dropWhile old,q.bk.dropWhile old⟩

def World.cleanupExpireBuffered (w : World) (i : Nat) (sta : StaInfo) : World :=
  if sta.type == .other then w
  else
    let old := bufferExpired w.hz w.jiffies sta
    {w.setSta i {sta with txFiltered := sta.txFiltered.expire old,psTxBuf := sta.psTxBuf.expire old} with
      totalPsBuffered := w.totalPsBuffered - (sta.psTxBuf.len - (sta.psTxBuf.expire old).len : Nat)}

def StaInfo.cleaned (sta : StaInfo) : StaInfo :=
  {sta with
    psSta := false,
    psDriver := false,
    psDeliver := false,
    psTxBuf := .empty,
    txFiltered := .empty,
    deliverWk := false,
    phase := .freed,
    asleep := false}

def World.cleanupSingleSta (w : World) (i : Nat) (sta : StaInfo) : World :=
  if sta.blocked && sta.type == .other then w.setSta i {sta with phase := .freed}
  else
    let w := if sta.blocked then w.addNumStaPs sta.ps (-1) else w
    {w.setSta i sta.cleaned with totalPsBuffered := w.totalPsBuffered - sta.psTxBuf.len}

-- ieee80211_sta_expire for one station that was silent for too long; __sta_info_destroy goes on with it.
def World.staExpire (w : World) (i : Nat) (sta : StaInfo) : World :=
  (if sta.type == .meshPoint && sta.psSta then w.addNumStaPs sta.ps (-1) else w).setSta i {sta with phase := .unlinked}

-- Kept while the station is asleep.
def World.handleFilteredFrame (w : World) (i : Nat) (sta : StaInfo) (skb : Skb) : World :=
  let old := sta.txFiltered.get skb.ac
  if sta.psSta && old.length < staMaxTxBuffer then
    w.setSta i {sta with txFiltered := sta.txFiltered.set skb.ac (old ++ [skb])}
  else w

def newSta (type : IfType) (ps : Nat) (uapsdQueues maxSp : UInt8) (listenInterval beaconInt : UInt16) : StaInfo where
  type := type
  ps := ps
  psSta := false
  psDriver := false
  psDeliver := false
  pspoll := false
  uapsd := false
  sp := false
  uapsdQueues := uapsdQueues
  maxSp := maxSp
  driverBufferedTids := 0
  txqBufferedTids := 0
  listenInterval := listenInterval
  beaconInt := beaconInt
  psTxBuf := .empty
  txFiltered := .empty
  deliverWk := false
  dead := false
  phase := .listed
  asleep := false

inductive Event where
  | txUnicast (i : Nat) (skb : Skb)
  | txMulticast (b : Nat) (skb : Skb)
  | filtered (i : Nat) (skb : Skb)
  | rxSta (i : Nat) (fc : UInt16) (txq : Option UInt16)
  | rxPoll (i : Nat) (fc : UInt16) (ac : Ac)
  | transition (i : Nat) (start : Bool) (txq : Option UInt16)
  | blockAwake (i : Nat) (block : Bool)
  | work (i : Nat)
  | eosp (i : Nat)
  | setBuffered (i : Nat) (driverTids txqTids : UInt16)
  | mpsStatus (i : Nat) (doBuffer : Bool)
  | mpsDeliver (i : Nat) (nFrames : Option Nat)
  | bufferedBc (b : Nat) (drops : Skb → Bool)
  | expire (i : Nat)
  | addSta (type : IfType) (ps : Nat) (uapsdQueues maxSp : UInt8) (listenInterval beaconInt : UInt16)
  | unlink (i : Nat)
  | staExpire (i : Nat)
  | destroy (i : Nat)
  | stop (b : Nat)
  | stopVlan (b : Nat) (dev : Nat)
  | beacon (b : Nat) (dtimCount : Nat) (dtimBcMc chanctx beacon : Bool)
  | tick (jiffies : Jiffies)

def World.onSta (w : World) (i : Nat) (test : StaInfo → Bool) (f : StaInfo → World) : Option World :=
  (w.stations[i]?).bind fun sta => if test sta then some (f sta) else none

def World.onPs (w : World) (b : Nat) (f : PsData → World) : Option World := (w.interfaces[b]?).map f

def StaInfo.alive (sta : StaInfo) : Bool := sta.phase != .freed

def step : Event → World → Option World
  | .txUnicast i skb,w => w.onSta i StaInfo.alive fun sta => (w.txHUnicastPsBuf i sta skb).1
  | .txMulticast b skb,w => some (w.txHMulticastPsBuf b skb).1
  | .filtered i skb,w => w.onSta i StaInfo.alive fun sta => w.handleFilteredFrame i sta skb
  | .rxSta i fc txq,w => w.onSta i StaInfo.alive fun sta => w.rxHStaProcess i sta fc txq
  | .rxPoll i fc ac,w => w.onSta i StaInfo.alive fun sta => w.rxHUapsdAndPspoll i sta fc ac
  | .transition i start txq,w =>
    w.onSta i (fun sta => sta.alive && sta.type.bssOrVlan && w.apLinkPs) fun sta => w.staPsTransition i sta start txq
  | .blockAwake i block,w => w.onSta i StaInfo.alive fun sta => w.setSta i (sta.blockAwake block)
  | .work i,w =>
    w.onSta i (fun sta => sta.alive && sta.deliverWk) fun sta =>
      let sta := {sta with deliverWk := false}
      (w.setSta i sta).staDeliverPsFrames i sta
  | .eosp i,w => w.onSta i StaInfo.alive fun sta => w.setSta i {sta with sp := false}
  | .setBuffered i driverTids txqTids,w =>
    w.onSta i StaInfo.alive fun sta =>
      w.setSta i {sta with driverBufferedTids := driverTids,txqBufferedTids := txqTids}
  | .mpsStatus i doBuffer,w =>
    w.onSta i (fun sta => sta.alive && sta.type == .meshPoint) fun sta => w.mpsStaStatusUpdate i sta doBuffer
  | .mpsDeliver i nFrames,w =>
    w.onSta i (fun sta => sta.alive && sta.type == .meshPoint) fun sta => w.mpsFrameDeliver i sta nFrames
  | .bufferedBc b drops,w => w.onPs b fun ps => (w.getBufferedBc b ps drops).1
  | .expire i,w => w.onSta i (fun sta => sta.phase == .listed) fun sta => w.cleanupExpireBuffered i sta
  | .addSta type ps uapsdQueues maxSp listenInterval beaconInt,w =>
    if type == .other || decide (ps < w.interfaces.length) then
      some {w with stations := w.stations ++ [newSta type ps uapsdQueues maxSp listenInterval beaconInt]}
    else none
  | .unlink i,w => w.onSta i (fun sta => sta.phase == .listed) fun sta => w.setSta i {sta with phase := .unlinked}
  | .staExpire i,w => w.onSta i (fun sta => sta.phase == .listed) fun sta => w.staExpire i sta
  | .destroy i,w =>
    w.onSta i (fun sta => sta.phase == .unlinked) fun sta => w.cleanupSingleSta i {sta with dead := true}
  | .stop b,w =>
    w.onPs b fun ps =>
      {w.setPs b {ps with bcBuf := []} with totalPsBuffered := w.totalPsBuffered - ps.bcBuf.length}
  | .stopVlan b dev,w =>
    w.onPs b fun ps =>
      {w.setPs b {ps with bcBuf := ps.bcBuf.filter fun skb => skb.dev != dev} with
        totalPsBuffered := w.totalPsBuffered - ps.bcBuf.countP fun skb => skb.dev == dev}
  | .beacon b dtimCount dtimBcMc chanctx beacon,w =>
    w.onPs b fun ps => w.setPs b {ps with dtimCount := dtimCount,dtimBcMc := dtimBcMc,chanctx := chanctx,beacon := beacon}
  | .tick jiffies,w => some {w with jiffies := jiffies}

section steps
variable {w : World} {i : Nat}

theorem onSta_inv (ran : w.onSta i test f = some w') :
    ∃ sta, w.stations[i]? = some sta ∧ test sta = true ∧ w' = f sta := by
  obtain ⟨sta,found,ran⟩ := Option.bind_eq_some_iff.mp ran
  split at ran
  · rename_i passed
    exact ⟨sta,found,passed,(Option.some.inj ran).symm⟩
  · cases ran

theorem onPs_inv (ran : w.onPs b f = some w') : ∃ ps, w.interfaces[b]? = some ps ∧ w' = f ps := by
  obtain ⟨ps,found,ran⟩ := Option.map_eq_some_iff.mp ran
  exact ⟨ps,found,ran.symm⟩

-- What a condition on the station of an event says.
theorem forall_found {p : StaInfo → Prop} (found : w.stations[i]? = some sta) :
    (∀ other, w.stations[i]? = some other → p other) ↔ p sta := by
  simp [found]

theorem found_setSta (found : w.stations[i]? = some sta) (sta' : StaInfo) : (w.setSta i sta').stations[i]? = some sta' :=
  List.getElem?_set_self (List.getElem?_eq_some_iff.mp found).1

theorem stations_addNumStaPs (w : World) (b : Nat) (change : Int) : (w.addNumStaPs b change).stations = w.stations := by
  unfold World.addNumStaPs
  split <;> rfl

end steps

def World.Initial (w : World) : Prop :=
  w.stations = [] ∧ w.totalPsBuffered = 0 ∧ ∀ ps ∈ w.interfaces, ps.bcBuf = [] ∧ ps.numStaPs = 0

inductive Reach (start : World) : World → Prop where
  | refl : Reach start start
  | step (prior : Reach start w) (ran : step e w = some w') : Reach start w'

def run (events : List Event) (w : World) : Option World := events.foldlM (fun w e => step e w) w

def sampleBss : World where
  hz := 250
  jiffies := 1000
  apLinkPs := false
  hostBroadcastPsBuffering := true
  totalPsBuffered := 0
  interfaces := [⟨.ap,[],0,0,true,true,true⟩]
  stations := []
  pending := []

def sampleSleeps : Event := .rxSta 0 0x1148 none
def sampleWakes : Event := .rxSta 0 0x0148 none
def sampleJoins : Event := .addSta .ap 0 0 0 10 100
def sampleAfter (events : List Event) : World := (run events sampleBss).getD sampleBss

theorem sample_initial : sampleBss.Initial := by
  refine ⟨rfl,rfl,?_⟩
  intro _ member
  cases List.mem_singleton.mp member
  exact ⟨rfl,rfl⟩

end Mac80211.PowerSave

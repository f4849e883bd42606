import Mac80211.MeshPathtbl

namespace Mac80211.MeshHwmp
open Ieee80211 MeshPathtbl
open RxReorder (Jiffies timeAfter)

-- SN_GT and SN_LT: the sign of a difference of 32 bits.
def snGt (x y : UInt32) : Bool := decide (0x80000000 ≤ y - x)
def snLt (x y : UInt32) : Bool := decide (0x80000000 ≤ x - y)

def maxMetric : UInt32 := 0xffffffff
def maxPreqQueueLen : Nat := 64
def reasonMeshPathDestUnreachable : UInt16 := 63
def timeBefore (a b : Jiffies) : Bool := timeAfter b a

structure Preq where
  flags : UInt8
  hopcount : UInt8
  ttl : UInt8
  preqId : UInt32
  origAddr : EthAddr
  origSn : UInt32
  lifetime : UInt32
  metric : UInt32
  targetF : UInt8
  targetAddr : EthAddr
  targetSn : UInt32
deriving DecidableEq

structure Prep where
  flags : UInt8
  hopcount : UInt8
  ttl : UInt8
  targetAddr : EthAddr
  targetSn : UInt32
  lifetime : UInt32
  metric : UInt32
  origAddr : EthAddr
  origSn : UInt32
deriving DecidableEq

structure Perr where
  ttl : UInt8
  targetAddr : EthAddr
  targetSn : UInt32
  rcode : UInt16
deriving DecidableEq

structure Rann where
  flags : UInt8
  hopcount : UInt8
  ttl : UInt8
  addr : EthAddr
  seq : UInt32
  interval : UInt32
  metric : UInt32
deriving DecidableEq

structure Elems where
  preq : Option (Nat × Preq)
  prep : Option (Nat × Prep)
  perr : Option (Nat × Perr)
  rann : Option Rann

def flag (flags bit : UInt8) : Bool := flags &&& bit != 0
def rannFlagIsGate : UInt8 := 0x01
def preqProactivePrepFlag : UInt8 := 0x04
def preqToFlag : UInt8 := 0x01
def preqUsnFlag : UInt8 := 0x04
def mpFDo : UInt8 := 0x01
def mpFRf : UInt8 := 0x02

inductive Sent where
  | preq (preq : Preq) (da : EthAddr)
  | prep (prep : Prep) (da : EthAddr)
  | perr (perr : Perr) (ra : EthAddr)
  | rann (rann : Rann) (da : EthAddr)
deriving DecidableEq

inductive RootMode where
  | noRoot | proactivePreqNoPrep | proactivePreqWithPrep | proactiveRann
deriving DecidableEq

structure MeshCfg where
  elementTtl : UInt8
  forwarding : Bool
  netTraversal : Jiffies
  preqMinInt : Jiffies
  perrMinInterval : UInt32
  discTimeout : UInt32
  rootConfirmation : Jiffies
  maxPreqRetries : UInt8
  activePathTimeout : UInt32
  activePathToRootTimeout : UInt32
  rannInterval : UInt32
  pathRefresh : Jiffies
  rootMode : RootMode
  gateAnnouncement : Bool
deriving DecidableEq

structure PreqNode where
  dst : EthAddr
  start : Bool
  refresh : Bool
deriving DecidableEq

structure IfMesh where
  mshcfg : MeshCfg
  sn : UInt32
  lastSnUpdate : Jiffies
  preqId : UInt32
  lastPreq : Jiffies
  nextPerr : Jiffies
  preqQueue : List PreqNode
deriving DecidableEq

structure Sta where
  sdata : Nat
  addr : EthAddr
  estab : Bool
  listed : Bool
deriving DecidableEq

inductive RouteIe where
  | preq (preq : Preq)
  | prep (prep : Prep)
deriving DecidableEq

-- Originator here refers to the target of the path request in a PREP.
def RouteIe.origAddr : RouteIe → EthAddr
  | .preq elem => elem.origAddr
  | .prep elem => elem.targetAddr

def RouteIe.origSn : RouteIe → UInt32
  | .preq elem => elem.origSn
  | .prep elem => elem.targetSn

def RouteIe.lifetime : RouteIe → UInt32
  | .preq elem => elem.lifetime
  | .prep elem => elem.lifetime

def RouteIe.metric : RouteIe → UInt32
  | .preq elem => elem.metric
  | .prep elem => elem.metric

-- Each action holds the lock of its path, and others run between them.
inductive Action where
  | routeInfo (ie : RouteIe)
  | transmitter (ie : RouteIe) (sta : Nat) (lastHopMetric newMetric : UInt32) (expTime : Jiffies) (process : Bool)
  | frame (ie : RouteIe) (metric : UInt32)
  | perr (perr : Perr)
  | rann (rann : Rann)
deriving DecidableEq

structure Task where
  sdata : Nat
  sa : EthAddr
  actions : List Action
deriving DecidableEq

-- The stations keep their places when they are removed.
structure World where
  tbl : MeshPathtbl.World
  mesh : List IfMesh
  stas : List Sta
  tasks : List Task
  sent : List Sent
deriving DecidableEq

def World.path (w : World) (p : Nat) : Option MeshPath := w.tbl.paths[p]?
def World.setPath (w : World) (p : Nat) (m : MeshPath) : World := {w with tbl := w.tbl.setPath p m}
def World.setMesh (w : World) (s : Nat) (ifmsh : IfMesh) : World := {w with mesh := w.mesh.set s ifmsh}
def World.send (w : World) (sent : Sent) : World := {w with sent := w.sent ++ [sent]}

def World.staInfoGet (w : World) (s : Nat) (addr : EthAddr) : Option Nat :=
  w.stas.findIdx? fun sta => sta.listed && sta.sdata == s && sta.addr == addr

def usecsToJiffies (hz : UInt16) (usecs : UInt32) : Jiffies := UInt64.ofNat ((usecs.toNat * hz.toNat + 999999) / 1000000)

def World.tuToExpTime (w : World) (tu : UInt32) : Jiffies := w.tbl.jiffies + usecsToJiffies w.tbl.hz (tu * 1024)

def meshPathActivate (m : MeshPath) : MeshPath := {m with flags.active := true,flags.resolved := true}

def later (a b : Jiffies) : Jiffies := if timeAfter a b then a else b

def takeOriginator (m : MeshPath) (sta : Nat) (sn metric : UInt32) (expTime : Jiffies) : MeshPath :=
  meshPathActivate {m with
    nextHop := some sta,
    flags.snValid := true,
    metric := metric,
    sn := sn,
    expTime := later m.expTime expTime}

def takeTransmitter (m : MeshPath) (sta : Nat) (metric : UInt32) (expTime : Jiffies) : MeshPath :=
  meshPathActivate {m with nextHop := some sta,metric := metric,expTime := later m.expTime expTime}

def World.meshPathErrorTx (w : World) (s : Nat) (ifmsh : IfMesh) (perr : Perr) (ra : EthAddr) : World :=
  if timeBefore w.tbl.jiffies ifmsh.nextPerr then w
  else (w.setMesh s {ifmsh with nextPerr := w.tuToExpTime ifmsh.mshcfg.perrMinInterval}).send (.perr perr ra)

def World.meshQueuePreq (w : World) (p : Nat) (start refresh alloc : Bool) : World :=
  match w.path p with
  | none => w
  | some m =>
    match w.mesh[m.sdata]? with
    | none => w
    | some ifmsh =>
      if !alloc then w
      else if ifmsh.preqQueue.length == maxPreqQueueLen then w
      else if m.flags.reqQueued then w
      else
        let w := w.setPath p {m with flags.reqQueued := true}
        w.setMesh m.sdata {ifmsh with
          preqQueue := ifmsh.preqQueue ++ [⟨m.dst,start,refresh⟩],
          lastPreq :=
            if timeAfter w.tbl.jiffies (ifmsh.lastPreq + ifmsh.mshcfg.preqMinInt) then ifmsh.lastPreq
            else if timeBefore w.tbl.jiffies ifmsh.lastPreq then w.tbl.jiffies - ifmsh.mshcfg.preqMinInt - 1
            else ifmsh.lastPreq}

section hwmp
variable (jhash : UInt32 → UInt32 → UInt32 → UInt32)

def World.meshPathLookup (w : World) (s : Nat) (dst : EthAddr) : World × Option Nat :=
  let looked := w.tbl.mpathLookup jhash .paths s dst
  ({w with tbl := looked.1},looked.2)

def World.meshPathAdd (w : World) (s : Nat) (iface : Iface) (dst : EthAddr) (allocPath allocNode : Bool) :
    World × Except Errno Nat :=
  let added := w.tbl.meshPathAdd jhash s iface dst allocPath allocNode
  ({w with tbl := added.1},added.2)

inductive Lookup where
  | found (p : Nat)
  | added (p : Nat)
  | failed

def World.lookupOrAdd (w : World) (s : Nat) (iface : Iface) (dst : EthAddr) (allocPath allocNode : Bool) : World × Lookup :=
  match w.meshPathLookup jhash s dst with
  | (w,some p) => (w,.found p)
  | (w,none) =>
    match w.meshPathAdd jhash s iface dst allocPath allocNode with
    | (w,.ok p) => (w,.added p)
    | (w,.error _) => (w,.failed)

def World.modPath (w : World) (p : Nat) (f : MeshPath → MeshPath) : World :=
  match w.path p with
  | none => w
  | some m => w.setPath p (f m)

-- The part for the originator. A metric that would overflow is the largest one.
def sumMetric (origMetric lastHopMetric : UInt32) : UInt32 :=
  if origMetric + lastHopMetric < origMetric then maxMetric else origMetric + lastHopMetric

def staleOriginator (m : MeshPath) (ie : RouteIe) (newMetric : UInt32) : Bool :=
  m.flags.active && m.flags.snValid && (snGt m.sn ie.origSn || m.sn == ie.origSn && decide (newMetric ≥ m.metric))

def World.routeInfo (w : World) (s : Nat) (iface : Iface) (sa : EthAddr) (ie : RouteIe) (lastHopMetric : UInt32)
    (allocPath allocNode : Bool) : World × List Action :=
  match w.staInfoGet s sa with
  | none => (w,[])
  | some sta =>
    let newMetric := sumMetric ie.metric lastHopMetric
    let expTime := w.tuToExpTime ie.lifetime
    let rest := fun process => [Action.transmitter ie sta lastHopMetric newMetric expTime process]
    let take := fun m => takeOriginator m sta ie.origSn newMetric expTime
    if ie.origAddr == iface.addr then (w,rest false)
    else
      match w.lookupOrAdd jhash s iface ie.origAddr allocPath allocNode with
      | (w,.failed) => (w,[])
      | (w,.added p) => (w.modPath p take,rest true)
      | (w,.found p) =>
        if (w.path p).any fun m => m.flags.fixed then (w,rest true)
        else if (w.path p).any fun m => staleOriginator m ie newMetric then (w,rest false)
        else (w.modPath p take,rest true)

def staleTransmitter (m : MeshPath) (lastHopMetric : UInt32) : Bool :=
  m.flags.fixed || m.flags.active && decide (lastHopMetric > m.metric)

def World.transmitterInfo (w : World) (s : Nat) (iface : Iface) (sa : EthAddr) (ie : RouteIe) (sta : Nat)
    (lastHopMetric newMetric : UInt32) (expTime : Jiffies) (process allocPath allocNode : Bool) : World × List Action :=
  let rest := if process && newMetric != 0 then [Action.frame ie newMetric] else []
  let take := fun m => takeTransmitter m sta lastHopMetric expTime
  if ie.origAddr == sa then (w,rest)
  else
    match w.lookupOrAdd jhash s iface sa allocPath allocNode with
    | (w,.failed) => (w,[])
    | (w,.added p) => (w.modPath p take,rest)
    | (w,.found p) => if (w.path p).any fun m => staleTransmitter m lastHopMetric then (w,rest) else (w.modPath p take,rest)

def World.snOld (w : World) (ifmsh : IfMesh) : Bool :=
  timeAfter w.tbl.jiffies (ifmsh.lastSnUpdate + ifmsh.mshcfg.netTraversal) || timeBefore w.tbl.jiffies ifmsh.lastSnUpdate

def World.raiseSn (w : World) (ifmsh : IfMesh) : IfMesh :=
  if w.snOld ifmsh then {ifmsh with sn := ifmsh.sn + 1,lastSnUpdate := w.tbl.jiffies} else ifmsh

structure PreqOut where
  reply : Bool
  forward : Bool
  targetAddr : EthAddr
  targetSn : UInt32
  targetFlags : UInt8
  metric : UInt32
  path : Option Nat

def preqTarget (m : MeshPath) (preq : Preq) (out : PreqOut) : MeshPath × PreqOut :=
  if !m.flags.snValid || snLt m.sn preq.targetSn then
    ({m with sn := preq.targetSn,flags.snValid := true},out)
  else if !flag preq.targetF mpFDo && m.flags.active then
    let out := {out with reply := true,metric := m.metric,targetSn := m.sn}
    if flag preq.targetF mpFRf then (m,{out with targetFlags := preq.targetF ||| mpFDo})
    else (m,{out with forward := false})
  else (m,out)

def World.addGate (w : World) (p : Nat) (alloc : Bool) : World :=
  match w.path p with
  | none => w
  | some m => {w with tbl := (w.tbl.meshPathAddGate p m alloc).1}

def World.preqInfo (w : World) (s : Nat) (iface : Iface) (ifmsh : IfMesh) (preq : Preq) (metric : UInt32)
    (alloc : Bool) : World × PreqOut :=
  let out : PreqOut := ⟨false,true,preq.targetAddr,preq.targetSn,preq.targetF,metric,none⟩
  if preq.targetAddr == iface.addr then
    let ifmsh := w.raiseSn ifmsh
    (w.setMesh s ifmsh,{out with reply := true,forward := false,metric := 0,targetSn := ifmsh.sn})
  else if preq.targetAddr == broadcastAddr && flag preq.targetF preqToFlag then
    match w.meshPathLookup jhash s preq.origAddr with
    | (w,none) => (w,out)
    | (w,some p) =>
      let (w,out) :=
        if flag preq.flags preqProactivePrepFlag then
          (w.setMesh s {ifmsh with sn := ifmsh.sn + 1,lastSnUpdate := w.tbl.jiffies},
            {out with reply := true,targetAddr := iface.addr,targetSn := ifmsh.sn + 1,metric := 0})
        else (w,out)
      (if flag preq.flags rannFlagIsGate then w.addGate p alloc else w,{out with path := some p})
  else
    match w.meshPathLookup jhash s preq.targetAddr with
    | (w,none) => (w,out)
    | (w,some p) =>
      match w.path p with
      | none => (w,out)
      | some m =>
        let (m,out) := preqTarget m preq {out with path := some p}
        (w.setPath p m,out)

def World.preqReply (w : World) (sa : EthAddr) (ifmsh : IfMesh) (preq : Preq) (out : PreqOut) : World :=
  if !out.reply || ifmsh.mshcfg.elementTtl == 0 then w
  else w.send (.prep ⟨0,0,ifmsh.mshcfg.elementTtl,out.targetAddr,out.targetSn,preq.lifetime,out.metric,preq.origAddr,
    preq.origSn⟩ sa)

def World.preqForward (w : World) (ifmsh : IfMesh) (preq : Preq) (origMetric : UInt32) (out : PreqOut) : World :=
  if !out.forward || !ifmsh.mshcfg.forwarding || preq.ttl ≤ 1 then w
  else
    let da := match out.path.bind w.path with
      | some m => if m.isRoot then m.rannSndAddr else broadcastAddr
      | none => broadcastAddr
    let proactive := flag preq.flags preqProactivePrepFlag
    w.send (.preq ⟨preq.flags,preq.hopcount + 1,preq.ttl - 1,preq.preqId,preq.origAddr,preq.origSn,preq.lifetime,
      if proactive then origMetric else out.metric,out.targetFlags,
      if proactive then preq.targetAddr else out.targetAddr,
      if proactive then preq.targetSn else out.targetSn⟩ da)

def World.preqFrameProcess (w : World) (s : Nat) (iface : Iface) (ifmsh : IfMesh) (sa : EthAddr) (preq : Preq)
    (metric : UInt32) (alloc : Bool) : World :=
  let (w,out) := w.preqInfo jhash s iface ifmsh preq metric alloc
  (w.preqReply sa ifmsh preq out).preqForward ifmsh preq metric out

def World.prepFrameProcess (w : World) (s : Nat) (iface : Iface) (ifmsh : IfMesh) (prep : Prep) (metric : UInt32) : World :=
  if prep.origAddr == iface.addr then w
  else if !ifmsh.mshcfg.forwarding then w
  else if prep.ttl ≤ 1 then w
  else
    let looked := w.meshPathLookup jhash s prep.origAddr
    let w := looked.1
    match looked.2.bind w.path with
    | none => w
    | some m =>
      if !m.flags.active then w
      else
        match m.nextHop.bind fun i => w.stas[i]? with
        | none => w
        | some sta => w.send (.prep {prep with hopcount := prep.hopcount + 1,ttl := prep.ttl - 1,metric := metric} sta.addr)

def World.perrFrameProcess (w : World) (s : Nat) (ifmsh : IfMesh) (sa : EthAddr) (perr : Perr) : World :=
  if perr.ttl ≤ 1 then w
  else
    match w.meshPathLookup jhash s perr.targetAddr with
    | (w,none) => w
    | (w,some p) =>
      match w.path p with
      | none => w
      | some m =>
        let fromNextHop := (m.nextHop.bind fun i => w.stas[i]?).any fun sta => sta.addr == sa
        if m.flags.active && fromNextHop && (!m.flags.snValid || snGt perr.targetSn m.sn) then
          let w := w.setPath p {m with flags.active := false,sn := perr.targetSn}
          if !ifmsh.mshcfg.forwarding then w
          else w.meshPathErrorTx s ifmsh {perr with ttl := perr.ttl - 1} broadcastAddr
        else w

def World.confirmRoot (w : World) (ifmsh : IfMesh) (m : MeshPath) (ttl : UInt8) : Bool :=
  (!m.flags.active && !m.flags.resolving ||
    timeAfter w.tbl.jiffies (m.lastPreqToRoot + ifmsh.mshcfg.rootConfirmation) ||
    timeBefore w.tbl.jiffies m.lastPreqToRoot) && !m.flags.fixed && ttl != 0

def World.rannPath (w : World) (ifmsh : IfMesh) (sa : EthAddr) (rann : Rann) (metricTxsta : UInt32)
    (p : Nat) (allocPreq allocGate : Bool) : World :=
  match w.path p with
  | none => w
  | some m =>
    if !snLt m.sn rann.seq && !(m.sn == rann.seq && decide (rann.metric < m.rannMetric)) then w
    else
      let confirm := w.confirmRoot ifmsh m rann.ttl
      let w := if confirm then w.meshQueuePreq p true true allocPreq else w
      match w.path p with
      | none => w
      | some m =>
        let w := w.setPath p {m with
          lastPreqToRoot := if confirm then w.tbl.jiffies else m.lastPreqToRoot,
          sn := rann.seq,
          rannMetric := rann.metric + metricTxsta,
          isRoot := true,
          rannSndAddr := sa}
        let w := if flag rann.flags rannFlagIsGate then w.addGate p allocGate else w
        if rann.ttl ≤ 1 || !ifmsh.mshcfg.forwarding then w
        else w.send (.rann {rann with
          hopcount := rann.hopcount + 1,
          ttl := rann.ttl - 1,
          metric := rann.metric + metricTxsta} broadcastAddr)

def World.rannFrameProcess (w : World) (s : Nat) (iface : Iface) (ifmsh : IfMesh) (sa : EthAddr) (rann : Rann)
    (metricTxsta : UInt32) (allocPath allocNode allocPreq allocGate : Bool) : World :=
  if rann.addr == iface.addr then w
  else
    match w.staInfoGet s sa with
    | none => w
    | some _ =>
      match w.lookupOrAdd jhash s iface rann.addr allocPath allocNode with
      | (w,.failed) => w
      | (w,.added p) => w.rannPath ifmsh sa rann metricTxsta p allocPreq allocGate
      | (w,.found p) => w.rannPath ifmsh sa rann metricTxsta p allocPreq allocGate

def Elems.actions (elems : Elems) : List Action :=
  let rann := match elems.rann with
    | none => []
    | some rann => [Action.rann rann]
  let perr := match elems.perr with
    | none => rann
    | some (len,perr) => if len != 15 then [] else .perr perr :: rann
  let prep := match elems.prep with
    | none => perr
    | some (len,prep) => if len != 31 then [] else .routeInfo (.prep prep) :: perr
  match elems.preq with
  | none => prep
  | some (len,preq) => if len != 37 then [] else .routeInfo (.preq preq) :: prep

def World.rxPathSelFrame (w : World) (s : Nat) (sa : EthAddr) (elems : Elems) : World :=
  match (w.staInfoGet s sa).bind fun i => w.stas[i]? with
  | none => w
  | some sta => if sta.estab then {w with tasks := w.tasks ++ [⟨s,sa,elems.actions⟩]} else w

structure Inputs where
  metric : UInt32
  allocPath : Bool
  allocNode : Bool
  allocPreq : Bool
  allocGate : Bool

def World.act (w : World) (s : Nat) (iface : Iface) (ifmsh : IfMesh) (sa : EthAddr) (i : Inputs) : Action → World × List Action
  | .routeInfo ie => w.routeInfo jhash s iface sa ie i.metric i.allocPath i.allocNode
  | .transmitter ie sta lastHopMetric newMetric expTime process =>
    w.transmitterInfo jhash s iface sa ie sta lastHopMetric newMetric expTime process i.allocPath i.allocNode
  | .frame (.preq preq) metric => (w.preqFrameProcess jhash s iface ifmsh sa preq metric i.allocGate,[])
  | .frame (.prep prep) metric => (w.prepFrameProcess jhash s iface ifmsh prep metric,[])
  | .perr perr => (w.perrFrameProcess jhash s ifmsh sa perr,[])
  | .rann rann =>
    (w.rannFrameProcess jhash s iface ifmsh sa rann i.metric i.allocPath i.allocNode i.allocPreq i.allocGate,[])

def World.breakPath (w : World) (i : Nat) (sta : Sta) (p : Nat) : World :=
  match w.path p with
  | none => w
  | some m =>
    if m.nextHop == some i && m.flags.active && !m.flags.fixed then
      let w := w.setPath p {m with flags.active := false,sn := m.sn + 1}
      match w.mesh[sta.sdata]? with
      | none => w
      | some ifmsh => w.meshPathErrorTx sta.sdata ifmsh ⟨ifmsh.mshcfg.elementTtl,m.dst,m.sn + 1,reasonMeshPathDestUnreachable⟩ broadcastAddr
    else w

def World.meshPlinkBroken (w : World) (i : Nat) (sta : Sta) : World :=
  w.tbl.meshPaths.nodes.foldl (fun w p => w.breakPath i sta p) w

def beginDiscovery (m : MeshPath) (start : Bool) (discTimeout : UInt32) : MeshPath :=
  if start then
    {m with flags.resolved := false,flags.resolving := true,discoveryRetries := 0,discoveryTimeout := discTimeout}
  else m

def World.discover (w : World) (s : Nat) (iface : Iface) (ifmsh : IfMesh) (node : PreqNode) (p : Nat) : World :=
  match w.path p with
  | none => w
  | some m =>
    let m := {m with flags.reqQueued := false}
    if node.start && m.flags.resolving then w.setPath p m
    else if !node.start && (!m.flags.resolving || m.flags.resolved) then w.setPath p {m with flags.resolving := false}
    else
      let m := beginDiscovery m node.start ifmsh.mshcfg.discTimeout
      let ifmsh := w.raiseSn {ifmsh with lastPreq := w.tbl.jiffies}
      let w := w.setPath p m
      if ifmsh.mshcfg.elementTtl == 0 then w.setMesh s ifmsh
      else
        let da := if m.isRoot then m.rannSndAddr else broadcastAddr
        let w := (w.setPath p {m with timer := true}).setMesh s {ifmsh with preqId := ifmsh.preqId + 1}
        w.send (.preq ⟨0,0,ifmsh.mshcfg.elementTtl,ifmsh.preqId,iface.addr,ifmsh.sn,ifmsh.mshcfg.activePathTimeout,0,
          if node.refresh then mpFDo else mpFRf,m.dst,m.sn⟩ da)

def World.startDiscovery (w : World) (s : Nat) (iface : Iface) (ifmsh : IfMesh) : World :=
  match ifmsh.preqQueue with
  | [] => w
  | node :: rest =>
    if timeBefore w.tbl.jiffies (ifmsh.lastPreq + ifmsh.mshcfg.preqMinInt) then w
    else
      let ifmsh := {ifmsh with preqQueue := rest}
      match (w.setMesh s ifmsh).meshPathLookup jhash s node.dst with
      | (w,none) => w
      | (w,some p) => w.discover s iface ifmsh node p

-- own: the frame is sent by this station itself.
def World.nexthopLookup (w : World) (s : Nat) (ifmsh : IfMesh) (target : EthAddr) (own alloc : Bool) : World × Option Nat :=
  match w.meshPathLookup jhash s target with
  | (w,none) => (w,none)
  | (w,some p) =>
    match w.path p with
    | none => (w,none)
    | some m =>
      if !m.flags.active then (w,none)
      else
        let refresh := timeAfter w.tbl.jiffies (m.expTime - ifmsh.mshcfg.pathRefresh) && own && !m.flags.resolving &&
          !m.flags.fixed
        (if refresh then w.meshQueuePreq p true true alloc else w,m.nextHop)

def World.nexthopResolve (w : World) (s : Nat) (iface : Iface) (ifmsh : IfMesh) (target : EthAddr) (own : Bool)
    (i : Inputs) : World :=
  let (w,nextHop) := w.nexthopLookup jhash s ifmsh target own i.allocPreq
  if nextHop.isSome then w
  else
    let queue := fun (w : World) (p : Nat) =>
      if (w.path p).any fun m => !m.flags.resolving then w.meshQueuePreq p true false i.allocPreq else w
    match w.lookupOrAdd jhash s iface target i.allocPath i.allocNode with
    | (w,.failed) => w
    | (w,.added p) => queue w p
    | (w,.found p) => queue w p

def World.meshPathTimer (w : World) (p : Nat) (m : MeshPath) (ifmsh : IfMesh) (alloc : Bool) : World :=
  let m := {m with timer := false}
  if m.flags.resolved || !m.flags.resolving then w.setPath p {m with flags.resolving := false,flags.resolved := false}
  else if m.discoveryRetries < ifmsh.mshcfg.maxPreqRetries then
    (w.setPath p {m with
      discoveryRetries := m.discoveryRetries + 1,
      discoveryTimeout := m.discoveryTimeout * 2,
      flags.reqQueued := false}).meshQueuePreq p false false alloc
  else w.setPath p {m with flags := .zero,expTime := w.tbl.jiffies}

def World.fixNexthop (w : World) (p : Nat) (i : Nat) : World :=
  w.modPath p fun m => meshPathActivate {m with nextHop := some i,sn := 0xffff,metric := 0,expTime := 0,flags.fixed := true}

def World.txRootFrame (w : World) (s : Nat) (iface : Iface) (ifmsh : IfMesh) : World :=
  let cfg := ifmsh.mshcfg
  let sn := ifmsh.sn + 1
  let gate := if cfg.gateAnnouncement then rannFlagIsGate else 0
  let preq := fun (flags : UInt8) =>
    (w.setMesh s {ifmsh with sn := sn,preqId := ifmsh.preqId + 1}).send
      (.preq ⟨flags,0,cfg.elementTtl,ifmsh.preqId,iface.addr,sn,cfg.activePathToRootTimeout,0,preqToFlag ||| preqUsnFlag,
        broadcastAddr,0⟩ broadcastAddr)
  match cfg.rootMode with
  | .proactiveRann =>
    (w.setMesh s {ifmsh with sn := sn}).send
      (.rann ⟨gate,0,cfg.elementTtl,iface.addr,sn,cfg.rannInterval,0⟩ broadcastAddr)
  | .proactivePreqWithPrep => preq (gate ||| preqProactivePrepFlag)
  | .proactivePreqNoPrep => preq gate
  | .noRoot => w

-- table: what is done to the tables from elsewhere.
inductive Event where
  | rx (s : Nat) (sa : EthAddr) (elems : Elems)
  | act (k : Nat) (i : Inputs)
  | broken (i : Nat)
  | discovery (s : Nat)
  | resolve (s : Nat) (target : EthAddr) (own : Bool) (i : Inputs)
  | timer (p : Nat) (alloc : Bool)
  | addMpath (s : Nat) (dst nextHop : EthAddr) (i : Inputs)
  | changeMpath (s : Nat) (dst nextHop : EthAddr)
  | rootFrame (s : Nat)
  | addSta (s : Nat) (addr : EthAddr)
  | plink (i : Nat) (estab : Bool)
  | removeSta (i : Nat)
  | table (e : MeshPathtbl.Event)

def World.onMesh (w : World) (s : Nat) (f : Iface → IfMesh → World) : Option World :=
  (w.tbl.ifaces[s]?).bind fun iface => (w.mesh[s]?).map fun ifmsh => f iface ifmsh

def World.actTask (w : World) (k : Nat) (task : Task) (i : Inputs) : Option World :=
  match task.actions with
  | [] => none
  | action :: rest =>
    w.onMesh task.sdata fun iface ifmsh =>
      let (w,more) := w.act jhash task.sdata iface ifmsh task.sa i action
      {w with tasks := w.tasks.set k {task with actions := more ++ rest}}

def isWrite : MeshPathtbl.Event → Bool
  | .write _ _ => true
  | _ => false

def step : Event → World → Option World
  | .rx s sa elems,w => some (w.rxPathSelFrame s sa elems)
  | .act k i,w => (w.tasks[k]?).bind fun task => w.actTask jhash k task i
  | .broken i,w => (w.stas[i]?).map fun sta => w.meshPlinkBroken i sta
  | .discovery s,w => w.onMesh s fun iface ifmsh => w.startDiscovery jhash s iface ifmsh
  | .resolve s target own i,w => w.onMesh s fun iface ifmsh => w.nexthopResolve jhash s iface ifmsh target own i
  | .timer p alloc,w =>
    (w.path p).bind fun m => if m.timer then (w.mesh[m.sdata]?).map fun ifmsh => w.meshPathTimer p m ifmsh alloc else none
  | .addMpath s dst nextHop i,w =>
    (w.tbl.ifaces[s]?).map fun iface =>
      match w.staInfoGet s nextHop with
      | none => w
      | some sta =>
        match w.meshPathAdd jhash s iface dst i.allocPath i.allocNode with
        | (w,.error _) => w
        | (w,.ok p) => w.fixNexthop p sta
  | .changeMpath s dst nextHop,w =>
    match w.staInfoGet s nextHop with
    | none => some w
    | some sta =>
      match w.meshPathLookup jhash s dst with
      | (w,none) => some w
      | (w,some p) => some (w.fixNexthop p sta)
  | .rootFrame s,w => w.onMesh s fun iface ifmsh => w.txRootFrame s iface ifmsh
  | .addSta s addr,w => some {w with stas := w.stas ++ [⟨s,addr,false,true⟩]}
  | .plink i estab,w =>
    (w.stas[i]?).map fun sta =>
      let w := if sta.estab && !estab then {w with tbl := w.tbl.meshPathFlushByNexthop i} else w
      {w with stas := w.stas.set i {sta with estab := estab}}
  | .removeSta i,w =>
    (w.stas[i]?).map fun sta =>
      {w with tbl := w.tbl.meshPathFlushByNexthop i,stas := w.stas.set i {sta with estab := false,listed := false}}
  | .table e,w => if isWrite e then none else (MeshPathtbl.step jhash e w.tbl).map fun tbl => {w with tbl := tbl}

inductive Reach (start : World) : World → Prop where
  | refl : Reach start start
  | step (prior : Reach start before) (ran : step jhash e before = some after) : Reach start after

def run (events : List Event) (w : World) : Option World := events.foldlM (fun w e => step jhash e w) w

end hwmp

end Mac80211.MeshHwmp

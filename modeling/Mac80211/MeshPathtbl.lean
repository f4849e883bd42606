import Mac80211.Ieee80211
import Mac80211.RxReorder
import Mac80211.HashChains
import Mac80211.Transitions

namespace Mac80211.MeshPathtbl
open Ieee80211 HashChains
open RxReorder (Jiffies timeAfter)

structure Flags where
  active : Bool
  resolving : Bool
  snValid : Bool
  fixed : Bool
  resolved : Bool
  reqQueued : Bool
deriving DecidableEq

def Flags.zero : Flags := ⟨false,false,false,false,false,false⟩

-- sdata and nextHop are places; timer: whether it is pending.
structure MeshPath where
  dst : EthAddr
  mpp : EthAddr
  sdata : Nat
  nextHop : Option Nat
  timer : Bool
  sn : UInt32
  metric : UInt32
  expTime : Jiffies
  discoveryTimeout : UInt32
  discoveryRetries : UInt8
  flags : Flags
  rannSndAddr : EthAddr
  rannMetric : UInt32
  lastPreqToRoot : Jiffies
  isRoot : Bool
  isGate : Bool
  freed : Bool
deriving DecidableEq

structure Iface where
  addr : EthAddr
  ifindex : UInt32
  mpaths : Int
  numGates : Int
  growMpath : Bool
  growMpp : Bool
deriving DecidableEq

-- A node of a table is the place of its mesh_path.
structure Table where
  sizeOrder : Nat
  hashRnd : UInt32
  entries : Int
  hashBuckets : List (List Nat)
  knownGates : List Nat
deriving DecidableEq

inductive Kind where
  | paths | mpp
deriving DecidableEq

-- The mesh_path structures keep their places. rcu: the nodes that wait for mesh_path_node_reclaim, with
-- their table.
structure World where
  hz : UInt16
  jiffies : Jiffies
  ifaces : List Iface
  paths : List MeshPath
  meshPaths : Table
  mppPaths : Table
  rcu : List (Kind × Nat)
deriving DecidableEq

inductive Errno where
  | notsupp | nospc | nomem | exist | nxio

def meshMaxMpaths : Int := 1024
def meanChainLen : Int := 2
def broadcastAddr : EthAddr := Vector.replicate 6 0xff

def Table.nodes (tbl : Table) : List Nat := tbl.hashBuckets.flatten
def Table.full (tbl : Table) : Bool := decide (tbl.entries ≥ meanChainLen * 2 ^ tbl.sizeOrder)

def World.table (w : World) : Kind → Table
  | .paths => w.meshPaths
  | .mpp => w.mppPaths

def World.setTable (w : World) (tbl : Table) : Kind → World
  | .paths => {w with meshPaths := tbl}
  | .mpp => {w with mppPaths := tbl}

def World.setPath (w : World) (p : Nat) (m : MeshPath) : World := {w with paths := w.paths.set p m}
def World.setIface (w : World) (s : Nat) (iface : Iface) : World := {w with ifaces := w.ifaces.set s iface}

def World.addMpaths (w : World) (s : Nat) (change : Int) : World :=
  match w.ifaces[s]? with
  | none => w
  | some iface => w.setIface s {iface with mpaths := iface.mpaths + change}

def World.addGates (w : World) (s : Nat) (change : Int) : World :=
  match w.ifaces[s]? with
  | none => w
  | some iface => w.setIface s {iface with numGates := iface.numGates + change}

def addrWord (addr : EthAddr) : UInt32 :=
  (byteAt addr 2).toUInt32 ||| (byteAt addr 3).toUInt32 <<< 8 ||| (byteAt addr 4).toUInt32 <<< 16 ||| (byteAt addr 5).toUInt32 <<< 24

def mpathExpired (now : Jiffies) (m : MeshPath) : Bool := m.flags.active && timeAfter now m.expTime && !m.flags.fixed

def World.checkExpired (w : World) (p : Nat) : World :=
  match w.paths[p]? with
  | none => w
  | some m => if mpathExpired w.jiffies m then w.setPath p {m with flags.active := false} else w

-- jhash is jhash_2words, which is outside of this repository.
section tables
variable (jhash : UInt32 → UInt32 → UInt32 → UInt32)

def meshTableHash (addr : EthAddr) (ifindex : UInt32) (tbl : Table) : Nat :=
  (jhash (addrWord addr) ifindex tbl.hashRnd).toNat &&& (2 ^ tbl.sizeOrder - 1)

def World.ifindex (w : World) (s : Nat) : UInt32 := ((w.ifaces[s]?).map Iface.ifindex).getD 0

def World.is (w : World) (s : Nat) (dst : EthAddr) (p : Nat) : Bool := (w.paths[p]?).any fun m => m.sdata == s && m.dst == dst

def World.find (w : World) (kind : Kind) (s : Nat) (dst : EthAddr) : Option Nat :=
  HashChains.find (w.is s dst) (meshTableHash jhash dst (w.ifindex s) (w.table kind)) (w.table kind).hashBuckets

def World.mpathLookup (w : World) (kind : Kind) (s : Nat) (dst : EthAddr) : World × Option Nat :=
  match w.find jhash kind s dst with
  | none => (w,none)
  | some p => (w.checkExpired p,some p)

def newMpath (dst mpp : EthAddr) (s : Nat) (rannSndAddr : EthAddr) (now : Jiffies) : MeshPath where
  dst := dst
  mpp := mpp
  sdata := s
  nextHop := none
  timer := false
  sn := 0
  metric := 0
  expTime := now
  discoveryTimeout := 0
  discoveryRetries := 0
  flags := .zero
  rannSndAddr := rannSndAddr
  rannMetric := 0
  lastPreqToRoot := 0
  isRoot := false
  isGate := false
  freed := false

def Iface.grow (iface : Iface) : Kind → Iface
  | .paths => {iface with growMpath := true}
  | .mpp => {iface with growMpp := true}

def World.queueGrow (w : World) (kind : Kind) (s : Nat) : World :=
  match w.ifaces[s]? with
  | none => w
  | some iface => w.setIface s (iface.grow kind)

def World.insertNode (w : World) (kind : Kind) (m : MeshPath) : World :=
  let tbl := w.table kind
  {w with paths := w.paths ++ [m]}.setTable {tbl with
    hashBuckets := addHead tbl.hashBuckets (meshTableHash jhash m.dst (w.ifindex m.sdata) tbl) w.paths.length,
    entries := tbl.entries + 1} kind

def World.insert (w : World) (kind : Kind) (m : MeshPath) : World :=
  let w := w.insertNode jhash kind m
  if (w.table kind).full then w.queueGrow kind m.sdata else w

def World.meshPathAdd (w : World) (s : Nat) (iface : Iface) (dst : EthAddr) (allocPath allocNode : Bool) :
    World × Except Errno Nat :=
  if dst == iface.addr then (w,.error .notsupp)
  else if isMulticastEtherAddr dst then (w,.error .notsupp)
  else if iface.mpaths == meshMaxMpaths then (w,.error .nospc)
  else
    let w := w.addMpaths s 1
    match w.find jhash .paths s dst with
    | some p => (w,.ok p)
    | none =>
      if !allocPath || !allocNode then (w.addMpaths s (-1),.error .nomem)
      else
        (w.insert jhash .paths (newMpath dst (Vector.replicate 6 0) s broadcastAddr w.jiffies),.ok w.paths.length)

def World.mppPathAdd (w : World) (s : Nat) (iface : Iface) (dst mpp : EthAddr) (allocPath allocNode : Bool) :
    World × Except Errno Unit :=
  if dst == iface.addr then (w,.error .notsupp)
  else if isMulticastEtherAddr dst then (w,.error .notsupp)
  else if !allocPath || !allocNode then (w,.error .nomem)
  else
    match w.find jhash .mpp s dst with
    | some _ => (w,.error .exist)
    | none => (w.insert jhash .mpp (newMpath dst mpp s (Vector.replicate 6 0) w.jiffies),.ok ())

def World.meshPathAddGate (w : World) (p : Nat) (m : MeshPath) (alloc : Bool) : World × Except Errno Unit :=
  if w.meshPaths.knownGates.contains p then (w,.error .exist)
  else if !alloc then (w,.error .nomem)
  else
    let w := (w.setPath p {m with isGate := true}).addGates m.sdata 1
    ({w with meshPaths := {w.meshPaths with knownGates := p :: w.meshPaths.knownGates}},.ok ())

def World.meshGateDel (w : World) (kind : Kind) (p : Nat) (m : MeshPath) : World :=
  let tbl := w.table kind
  if tbl.knownGates.contains p then
    ((w.setTable {tbl with knownGates := tbl.knownGates.erase p} kind).addGates m.sdata (-1)).setPath p
      {m with isGate := false}
  else w

def World.unlink (w : World) (kind : Kind) (p : Nat) : World :=
  let tbl := w.table kind
  {w.setTable {tbl with
    hashBuckets := HashChains.unlink tbl.hashBuckets p,
    entries := tbl.entries - 1} kind with rcu := w.rcu ++ [(kind,p)]}

def World.del (w : World) (kind : Kind) (p : Nat) : World :=
  match w.paths[p]? with
  | none => w
  | some m =>
    let m := {m with flags.resolving := true}
    let w := w.setPath p m
    let w := if m.isGate then w.meshGateDel kind p m else w
    w.unlink kind p

def World.meshPathDel (w : World) (s : Nat) (dst : EthAddr) : World × Except Errno Unit :=
  match w.find jhash .paths s dst with
  | none => (w,.error .nxio)
  | some p => (w.del .paths p,.ok ())

-- for_each_mesh_entry: the next node is still reached from a deleted one.
def World.forEach (w : World) (kind : Kind) (visit : World → Nat → MeshPath → World) : World :=
  (w.table kind).nodes.foldl (fun w p => match w.paths[p]? with
    | none => w
    | some m => visit w p m) w

def World.flush (w : World) (kind : Kind) (test : MeshPath → Bool) : World :=
  w.forEach kind fun w p m => if test m then w.del kind p else w

def World.meshPathFlushByNexthop (w : World) (sta : Nat) : World := w.flush .paths fun m => m.nextHop == some sta

def World.meshPathFlushByIface (w : World) (s : Nat) : World :=
  (w.flush .paths fun m => m.sdata == s).flush .mpp fun m => m.sdata == s

def meshPathExpireTime (hz : UInt16) : Jiffies := 600 * hz.toUInt64

def World.meshPathExpire (w : World) (s : Nat) : World :=
  w.forEach .paths fun w _ m =>
    if m.sdata == s && !m.flags.resolving && !m.flags.fixed && timeAfter w.jiffies (m.expTime + meshPathExpireTime w.hz) then
      (w.meshPathDel jhash m.sdata m.dst).1
    else w

def World.index (w : World) (tbl : Table) (p : Nat) : Nat :=
  (w.paths[p]?).elim 0 fun m => meshTableHash jhash m.dst (w.ifindex m.sdata) tbl

def World.tableGrow (w : World) (kind : Kind) (hashRnd : UInt32) (alloc : Bool) : World :=
  let tbl := w.table kind
  if !tbl.full || !alloc then w
  else
    let larger := {tbl with sizeOrder := tbl.sizeOrder + 1,hashRnd := hashRnd}
    w.setTable {larger with
      hashBuckets := rehash (w.index jhash larger) (List.replicate (2 ^ larger.sizeOrder) []) tbl.nodes} kind

def Iface.grows (iface : Iface) : Kind → Bool
  | .paths => iface.growMpath
  | .mpp => iface.growMpp

def Iface.grown (iface : Iface) : Kind → Iface
  | .paths => {iface with growMpath := false}
  | .mpp => {iface with growMpp := false}

-- The function does not look at the table that the node was in.
def World.meshPathNodeReclaim (w : World) (j : Nat) (p : Nat) (m : MeshPath) : World :=
  let w := {w with rcu := w.rcu.eraseIdx j}
  (w.addMpaths m.sdata (-1)).setPath p {m with timer := false,freed := true}

-- write: mesh_hwmp.c and mesh_path_fix_nexthop.
inductive Event where
  | pathAdd (s : Nat) (dst : EthAddr) (allocPath allocNode : Bool)
  | mppAdd (s : Nat) (dst mpp : EthAddr) (allocPath allocNode : Bool)
  | lookup (kind : Kind) (s : Nat) (dst : EthAddr)
  | pathDel (s : Nat) (dst : EthAddr)
  | flushByNexthop (sta : Nat)
  | flushByIface (s : Nat)
  | expire (s : Nat)
  | addGate (p : Nat) (alloc : Bool)
  | grow (kind : Kind) (s : Nat) (hashRnd : UInt32) (alloc : Bool)
  | reclaim (j : Nat)
  | write (p : Nat) (m : MeshPath)
  | tick (jiffies : Jiffies)

def World.onIface (w : World) (s : Nat) (f : Iface → World) : Option World := (w.ifaces[s]?).map f
def World.onPath (w : World) (p : Nat) (f : MeshPath → World) : Option World := (w.paths[p]?).map f

def step : Event → World → Option World
  | .pathAdd s dst allocPath allocNode,w =>
    w.onIface s fun iface => (w.meshPathAdd jhash s iface dst allocPath allocNode).1
  | .mppAdd s dst mpp allocPath allocNode,w =>
    w.onIface s fun iface => (w.mppPathAdd jhash s iface dst mpp allocPath allocNode).1
  | .lookup kind s dst,w => some (w.mpathLookup jhash kind s dst).1
  | .pathDel s dst,w => some (w.meshPathDel jhash s dst).1
  | .flushByNexthop sta,w => some (w.meshPathFlushByNexthop sta)
  | .flushByIface s,w => some (w.meshPathFlushByIface s)
  | .expire s,w => some (w.meshPathExpire jhash s)
  | .addGate p alloc,w =>
    if w.meshPaths.nodes.contains p || w.rcu.contains (.paths,p) then
      w.onPath p fun m => (w.meshPathAddGate p m alloc).1
    else none
  | .grow kind s hashRnd alloc,w =>
    (w.ifaces[s]?).bind fun iface =>
      if iface.grows kind then some ((w.setIface s (iface.grown kind)).tableGrow jhash kind hashRnd alloc) else none
  | .reclaim j,w => (w.rcu[j]?).bind fun node => w.onPath node.2 fun m => w.meshPathNodeReclaim j node.2 m
  | .write p m',w =>
    w.onPath p fun m => w.setPath p {m' with dst := m.dst,mpp := m.mpp,sdata := m.sdata,isGate := m.isGate,freed := m.freed}
  | .tick jiffies,w => some {w with jiffies := jiffies}

inductive Reach (start : World) : World → Prop where
  | refl : Reach start start
  | step (prior : Reach start before) (ran : step jhash e before = some after) : Reach start after

def run (events : List Event) (w : World) : Option World := events.foldlM (fun w e => step jhash e w) w

end tables

def Table.init (hashRnd : UInt32) : Table := ⟨2,hashRnd,0,List.replicate 4 [],[]⟩

def World.Initial (w : World) : Prop :=
  w.paths = [] ∧ w.rcu = [] ∧ (∃ hashRnd, w.meshPaths = .init hashRnd) ∧ (∃ hashRnd, w.mppPaths = .init hashRnd) ∧
    ∀ iface ∈ w.ifaces, iface.mpaths = 0 ∧ iface.numGates = 0

end Mac80211.MeshPathtbl

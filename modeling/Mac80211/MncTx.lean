import Mac80211.Gf
import Mac80211.Loops
import Mac80211.SkBuff
import Mac80211.TlRxParam

namespace Mac80211.MncTx
open Gf Loops
open Function (update)

-- P of mnc_tx.c.
def P : Nat := 2

-- The first header byte, shared with the receiver: (k << 2) | p.
def kpByte (k p : Nat) : UInt8 := UInt8.ofNat ((k <<< 2) ||| p)

def calData (data : Nat → UInt8) (p : Nat) (coefficient : Nat → Nat → UInt8) (dataNew : Nat) (mem : Nat → UInt8) :
    Nat → UInt8 :=
  forRange 0 p (fun i mem => forRange 0 p (fun j mem =>
    let mul := gmul (data j) (coefficient i j)
    update mem (dataNew + i) (gadd (mem (dataNew + i)) mul)) mem) mem

-- The new packet, the position of the next coefficient, and the block drawn last.
structure Encoding where
  skbNew : Skb
  l : Nat
  coefficient : Nat → Nat → UInt8
  kernel : Kernel

def drawCoefficient (dataNew i j : Nat) (e : Encoding) : Encoding :=
  let (coefficient,kernel) := getRandomByte e.kernel
  {e with
    coefficient := update e.coefficient i (update (e.coefficient i) j coefficient)
    skbNew := {e.skbNew with mem := update e.skbNew.mem (dataNew + 3 + e.l) coefficient}
    l := e.l + 1
    kernel := kernel}

def encodeOne (src : Bool) (p codingLen mncHdrlen : Nat) (skb : Skb) (e : Encoding) : Returns Encoding :=
  let data := skb.data + (if src then etherHeadLen else 0)
  let dataNew := e.skbNew.data + etherHeadLen
  let e := forRange 0 p (fun i e => forRange 0 p (fun j e => drawCoefficient dataNew i j e) e) e
  let dataNew := dataNew + mncHdrlen
  match forStep codingLen p (fun i mem =>
    calData (fun o => skb.mem (data + i + o)) p e.coefficient (dataNew + i) mem) e.skbNew.mem with
  | none => none
  | some mem => some {e with skbNew := {e.skbNew with mem := mem}}

def mncHeader (mem : Nat → UInt8) (dataNew : Nat) (kp id third : UInt8) : Nat → UInt8 :=
  let mem := update mem dataNew kp
  let mem := update mem (dataNew + 1) id
  let mem := update mem (dataNew + 2) third
  let mem := update mem (dataNew - 2) 0x08
  update mem (dataNew - 1) 0x10

def prepareSkbNew (src : Bool) (p k : Nat) (id : UInt8) (skbNew : Skb) : Skb :=
  let mncHdrlen := p * p * k + 3
  let skbNew := skbPut skbNew mncHdrlen
  let skbNew :=
    if src then
      let nhPos := (skbNew.networkHeader : Int) - skbNew.data + mncHdrlen
      let hPos := (skbNew.transportHeader : Int) - skbNew.data + mncHdrlen
      skbSetTransportHeader (skbSetNetworkHeader skbNew nhPos) hPos
    else
      let skbNew := {skbNew with priority := skbNew.priority + 256,protocol := 0x0100}
      let skbNew := skbSetMacHeader (skbSetNetworkHeader skbNew 0) 0
      skbPush skbNew etherHeadLen
  let dataNew := skbNew.data + etherHeadLen
  let mem := forRange 0 (subU32 skbNew.len etherHeadLen) (fun i mem => update mem (dataNew + i) 0) skbNew.mem
  {skbNew with mem := mncHeader mem dataNew (kpByte k p) id (if src then 0xfc else 0xfd)}

-- none: continue does not advance skb at a packet of another length. The inner none is the null pointer.
def makeSkbNew (par : TrParam) (skbs : List Skb) (p : Nat) (id : UInt8) (kernel : Kernel) :
    Returns (Option Skb × Kernel) :=
  let k := skbs.length
  match skbs with
  | [] => some (none,kernel)
  | first :: _ =>
    if k ≥ 0x1000000 then some (none,kernel)
    else if p ≥ 0x100 then some (none,kernel)
    else
      let mncHdrlen := p * p * k + 3
      let codingLen := if par.src then subU32 first.len etherHeadLen else first.len
      let (skbNew,kernel) := skbCopy first kernel
      let start : Encoding := ⟨prepareSkbNew par.src p k id skbNew,0,fun _ _ => 0,kernel⟩
      let encoded := skbs.foldlM (fun e skb =>
        if first.len ≠ skb.len then none else encodeOne par.src p codingLen mncHdrlen skb e) start
      encoded.map fun e => (some e.skbNew,e.kernel)

def systematic (k p : Nat) (id : UInt8) (j : Nat) (skbNewSys : Skb) : Skb :=
  let skbNewSys := skbPush skbNewSys 3
  let nhPos := (skbNewSys.networkHeader : Int) - skbNewSys.data + 3
  let hPos := (skbNewSys.transportHeader : Int) - skbNewSys.data + 3
  let skbNewSys := skbSetTransportHeader (skbSetNetworkHeader skbNewSys nhPos) hPos
  let mem := forRange 0 etherHeadLen (fun i mem =>
    update mem (skbNewSys.data + i) (mem (skbNewSys.data + i + 3))) skbNewSys.mem
  {skbNewSys with mem := mncHeader mem (skbNewSys.data + etherHeadLen) (kpByte k p) id (UInt8.ofNat (j <<< 2))}

structure Enqueued where
  result : List Skb
  j : Nat
  kernel : Kernel

def enqueueSkbOriginal (skbs : List Skb) (p : Nat) (id : UInt8) (result : List Skb) (kernel : Kernel) :
    Returns (List Skb × Kernel) :=
  let k := skbs.length
  match skbs with
  | [] => some (result,kernel)
  | first :: _ =>
    if k ≥ 0x1000000 then some (result,kernel)
    else if p ≥ 0x100 then some (result,kernel)
    else
      let enqueued := skbs.foldlM (fun (e : Enqueued) skb =>
        if first.len ≠ skb.len then none
        else
          let (skbNewSys,kernel) := skbCopy skb e.kernel
          some ⟨e.result ++ [systematic k p id e.j skbNewSys],e.j + 1,kernel⟩) ⟨result,0,kernel⟩
      enqueued.map fun e => (e.result,e.kernel)

def codedPackets (par : TrParam) (skbs : List Skb) (id : UInt8) (count : Nat) (result : List Skb) (kernel : Kernel) :
    Returns (List Skb × Kernel) :=
  forSome 0 count (fun _ (result,kernel) =>
    match makeSkbNew par skbs P id kernel with
    | none => none
    | some (none,kernel) => some (result,kernel)
    | some (some skb,kernel) => some (result ++ [skb],kernel)) (result,kernel)

-- ieee80211_subif_start_xmit always reports NETDEV_TX_OK.
def encodedPackets (par : TrParam) (skbs : List Skb) (id : UInt8) (kernel : Kernel) : Returns (List Skb × Kernel) :=
  if par.sys then
    match enqueueSkbOriginal skbs P id [] kernel with
    | none => none
    | some (result,kernel) =>
      if par.dataN > par.dataK then codedPackets par skbs id (par.dataN.toNat - par.dataK.toNat) result kernel
      else some (result,kernel)
  else codedPackets par skbs id par.dataN.toNat [] kernel

def nextEid (eid : UInt8) : UInt8 := if eid + 1 = 0 then eid + 1 + 1 else eid + 1

def mncEncodingTx (par : TrParam) (skbs : List Skb) (dev : NetDevice) (id eid : UInt8) (kernel : Kernel) :
    Returns (UInt8 × Kernel) :=
  match encodedPackets par skbs id kernel with
  | none => none
  | some (result,kernel) =>
    some (if par.src then nextEid eid else eid,
      result.foldl (fun kernel skb => ieee80211SubifStartXmit skb dev kernel) kernel)

end Mac80211.MncTx

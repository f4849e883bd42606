import Mac80211.LinkedList
import Mac80211.MncDecode
import Mac80211.MncTx

namespace Mac80211.MncRx
open LinkedList

-- The links are those of the list record.
structure MncQueue where
  eid : UInt8
  ejiffies : UInt64
  kp : UInt8
  sys : Bool
  skbs : List Skb

def etimeout : UInt64 := 125

-- The static variables of decoding_try and the kernel around it.
structure State where
  list : Store Unit MncQueue
  i : Bool
  lastDid : Vector UInt8 3
  kernel : Kernel

-- Last byte first.
def skbDecodingSys (skb : Skb) : Skb :=
  let mh := skb.macHeader
  let mem := Loops.forRange 0 14 (fun i mem =>
    Function.update mem (mh + 13 + 3 - i) (mem (mh + 13 - i))) skb.mem
  skbPull {skb with mem := mem,macHeader := mh + 3} 3

def mncQueueHeadInit (list : Store Unit MncQueue) : Store Unit MncQueue := {list with heads := fun _ => ⟨none,0⟩}

def mncQueueCreate (eid : UInt8) (ejiffies : UInt64) (kp : UInt8) (list : Store Unit MncQueue) :
    Nat × Store Unit MncQueue :=
  list.alloc ⟨eid,ejiffies,kp,true,[]⟩ (some ())

def mncQueueFree (mncq : Nat) (list : Store Unit MncQueue) (kernel : Kernel) : Returns (Store Unit MncQueue × Kernel) :=
  match list.nodes mncq with
  | none => none
  | some n =>
    match list.unlink mncq with
    | none => none
    | some list => some ((list.setLen () (· - 1)).release mncq,skbQueuePurge n.val.skbs kernel)

def mncQueueInsert (list : Store Unit MncQueue) (newmncq : Nat) : Returns (Store Unit MncQueue) :=
  list.append () newmncq

def mncQueueHeadFindEid (list : Store Unit MncQueue) (eid : UInt8) : Returns (Option Nat) :=
  list.find (fun q => q.eid == eid) list.brk (list.heads ()).next

def expired (cjiffies : UInt64) (q : MncQueue) : Bool := cjiffies - q.ejiffies > etimeout

def mncQueueHeadCheckEtime (cjiffies : UInt64) :
    Nat → Option Nat → Store Unit MncQueue → Kernel → Returns (Store Unit MncQueue × Kernel)
  | _,none,list,kernel => some (list,kernel)
  | 0,some _,_,_ => none
  | fuel + 1,some mncq,list,kernel =>
    match list.nodes mncq with
    | none => none
    | some n =>
      if expired cjiffies n.val then
        match mncQueueFree mncq list kernel with
        | none => none
        | some (list,kernel) => mncQueueHeadCheckEtime cjiffies fuel n.next list kernel
      else mncQueueHeadCheckEtime cjiffies fuel n.next list kernel

-- A systematic packet goes to the stack at once, and its copy to the queue.
def queuePacket (skb : Skb) (mncq : MncQueue) (kernel : Kernel) : MncQueue × Kernel :=
  if mindex skb ≠ 0x3f then
    let (skbTemp,kernel) := skbCopy skb kernel
    ({mncq with skbs := mncq.skbs ++ [skbTemp]},
      netifReceiveSkb (skbDecodingSys skb) (some (skb.byte 1,mindex skb)) kernel)
  else ({mncq with sys := false,skbs := mncq.skbs ++ [skb]},kernel)

inductive Admitted where
  | dropped (s : State)
  | queued (mncq : Nat) (s : State)

def openQueue (cjiffies : UInt64) (eid kp : UInt8) (list : Store Unit MncQueue) : Returns (Nat × Store Unit MncQueue) :=
  match mncQueueHeadFindEid list eid with
  | none => none
  | some (some mncq) => some (mncq,list)
  | some none =>
    let (mncq,list) := mncQueueCreate eid cjiffies kp list
    (mncQueueInsert list mncq).map fun list => (mncq,list)

def enqueue (cjiffies : UInt64) (skb : Skb) (s : State) : Returns Admitted :=
  let list := if s.i then s.list else mncQueueHeadInit s.list
  let eid := skb.byte 1
  let kp := skb.byte 0
  match mncQueueHeadCheckEtime cjiffies list.brk (list.heads ()).next list s.kernel with
  | none => none
  | some (list,kernel) =>
    if eid ∈ s.lastDid.toList then
      some (.dropped {s with list := list,i := true,kernel := kfreeSkb (some skb) kernel})
    else
      match openQueue cjiffies eid kp list with
      | none => none
      | some (mncq,list) =>
        match list.nodes mncq with
        | none => none
        | some n =>
          if kp ≠ n.val.kp then
            some (.dropped {s with list := list,i := true,kernel := kfreeSkb (some skb) kernel})
          else
            let (q,kernel) := queuePacket skb n.val kernel
            (list.setVal mncq q).map fun list => .queued mncq {s with list := list,i := true,kernel := kernel}

def pushDid (eid : UInt8) (lastDid : Vector UInt8 3) : Vector UInt8 3 := #v[eid,lastDid[0],lastDid[1]]

-- The eid counter of mnc_encoding_tx only moves at a source.
def relay (par : TrParam) (newskbs : List Skb) (rdev : NetDevice) (eid : UInt8) (kernel : Kernel) : Returns Kernel :=
  if par.dataN > 0 ∧ par.src = false then (MncTx.mncEncodingTx par newskbs rdev eid 0 kernel).map Prod.snd
  else some kernel

def deliver (eid : UInt8) (newskbs : List (Nat × Skb)) (kernel : Kernel) : Kernel :=
  newskbs.foldl (fun kernel s => netifReceiveSkb s.2 (some (eid,s.1)) kernel) kernel

def complete (par : TrParam) (rdev : NetDevice) (eid kp : UInt8) (mncq : Nat) (s : State) : Returns State :=
  match s.list.nodes mncq with
  | none => none
  | some n =>
    if n.val.skbs.length = (kp >>> 2).toNat then
      if n.val.sys then
        (mncQueueFree mncq s.list s.kernel).map fun (list,kernel) =>
          {s with list := list,lastDid := pushDid eid s.lastDid,kernel := kernel}
      else
        match skbsDecoding n.val.skbs kp s.kernel with
        | none => none
        | some d =>
          match s.list.setVal mncq {n.val with skbs := d.skbs} with
          | none => none
          | some list =>
            if d.ok then
              match relay par (d.newskbs.map Prod.snd) rdev eid d.kernel with
              | none => none
              | some kernel =>
                (mncQueueFree mncq list (deliver eid d.newskbs kernel)).map fun (list,kernel) =>
                  {s with list := list,lastDid := pushDid eid s.lastDid,kernel := kernel}
            else some {s with list := list,kernel := d.kernel}
    else some s

def ethertype (skb : Skb) : UInt16 :=
  ((skb.mem (skb.macHeader + 12)).toUInt16 <<< 8) ||| (skb.mem (skb.macHeader + 13)).toUInt16

def stripEthertype (skb : Skb) : Skb :=
  {skb with
    mem := Function.update (Function.update skb.mem (skb.macHeader + 12) 0x08) (skb.macHeader + 13) 0x00
    protocol := 0x0008}

def decodingTry (par : TrParam) (jiffies : UInt64) (skb : Skb) (s : State) : Returns State :=
  if ethertype skb ≠ 0x0810 ∧ ethertype skb ≠ 0x0811 then
    some {s with kernel := netifReceiveSkb skb none s.kernel}
  else if ethertype skb = 0x0811 then some {s with kernel := s.kernel.record (.control skb)}
  else
    let skb := stripEthertype skb
    match enqueue jiffies skb s with
    | none => none
    | some (.dropped s) => some s
    | some (.queued mncq s) => complete par skb.dev (skb.byte 1) (skb.byte 0) mncq s

-- One frame from the driver, with the time and the parameters at that moment.
structure Arrival where
  skb : Skb
  jiffies : UInt64
  par : TrParam

def receive (e : Arrival) (s : State) : Returns State :=
  decodingTry e.par e.jiffies {e.skb with id := s.kernel.nextSkb}
    {s with kernel := {s.kernel with nextSkb := s.kernel.nextSkb + 1}}

def initial (random : Nat → UInt8) : State where
  list := ⟨fun _ => none,fun _ => ⟨none,0⟩,0⟩
  i := false
  lastDid := #v[0,0,0]
  kernel := ⟨0,random,0,[]⟩

end Mac80211.MncRx

import Mathlib.Data.List.Nodup
import Mac80211.Loops
import Mac80211.SkBuff
import Mac80211.TlRxParam

namespace Mac80211.TlRx
open Loops

def numMcs : Nat := 8
def trSize : Nat := 49
def tfSize : Nat := 1370
def sndtfSize : Nat := 19

inductive TrType where
  | typeOneTF
  | typeTwoTF
  | typeOneTR
  | typeTwoTR
  | sendTF
  | nbrRPT
  | setRelay

def TrType.code : TrType → UInt8
  | .typeOneTF => 1
  | .typeTwoTF => 2
  | .typeOneTR => 3
  | .typeTwoTR => 4
  | .sendTF => 5
  | .nbrRPT => 6
  | .setRelay => 7

-- A list is kept in order, so that qlen is its length; ptr stands for the pointer.
structure TrInfo where
  ptr : Nat
  addr : EthAddr
  dev : NetDevice
  totalNum : UInt32
  rcvNum : Vector UInt32 8
  rssi : UInt8
  batt : UInt8
  tfCnt : Bool
  nrCnt : Bool
  nbrList : List TrInfo

def zeroRcv : Vector UInt32 8 := Vector.replicate 8 0

def trInfoCreate (ptr : Nat) (addr : EthAddr) (dev : NetDevice) (totalNum : UInt32) (rcvNum : Vector UInt32 8)
    (rssi batt : UInt8) : TrInfo :=
  ⟨ptr,addr,dev,totalNum,rcvNum,rssi,batt,false,false,[]⟩

def trInfoInsert (newinfo : TrInfo) (list : List TrInfo) : List TrInfo := list ++ [newinfo]

def trInfoFindAddr (list : List TrInfo) (addr : EthAddr) : Option TrInfo := list.find? fun info => info.addr == addr

def trInfoUpdate (addr : EthAddr) (change : TrInfo → TrInfo) : List TrInfo → List TrInfo
  | [] => []
  | info :: rest => if info.addr == addr then change info :: rest else info :: trInfoUpdate addr change rest

def trInfoListPurge (_ : List TrInfo) : List TrInfo := []

def trInfoCheckNrCnt (list : List TrInfo) : Bool := list.all (·.nrCnt)

-- In the neighbour list of every other node.
def trInfoListDelNbr (addr : EthAddr) (list : List TrInfo) : List TrInfo :=
  list.map fun info =>
    if info.addr == addr then info else {info with nbrList := info.nbrList.eraseP fun nbr => nbr.addr == addr}

def trInfoListArrangement (tfThre : UInt32) (list : List TrInfo) : List TrInfo :=
  list.foldl (fun after info => if firstRcv info.rcvNum ≥ tfThre then trInfoListDelNbr info.addr after else after) list

def getTotRcv (info : TrInfo) : UInt32 := info.rcvNum.foldl (· + ·) 0

def memcpy (s : Skb) (offset : Nat) (src : List UInt8) : Skb := {s with mem := fun a =>
  if s.data + offset ≤ a ∧ a < s.data + offset + src.length then src.getD (a - (s.data + offset)) 0 else s.mem a}

def putU32 (s : Skb) (offset : Nat) (v : UInt32) : Skb :=
  (((s.store offset (v >>> 24 &&& 0xff).toUInt8).store (offset + 1) (v >>> 16 &&& 0xff).toUInt8).store (offset + 2)
    (v >>> 8 &&& 0xff).toUInt8).store (offset + 3) (v &&& 0xff).toUInt8

def getU32 (s : Skb) (offset : Nat) : UInt32 :=
  (s.byte offset).toUInt32 <<< 24 ||| (s.byte (offset + 1)).toUInt32 <<< 16 ||| (s.byte (offset + 2)).toUInt32 <<< 8 |||
    (s.byte (offset + 3)).toUInt32

def getAddr (s : Skb) (offset : Nat) : EthAddr := Vector.ofFn fun i => s.byte (offset + i)

def daddr (s : Skb) : EthAddr := Vector.ofFn fun i => s.mem (s.macHeader + i)
def saddr (s : Skb) : EthAddr := Vector.ofFn fun i => s.mem (s.macHeader + 6 + i)

def putRcv (s : Skb) (offset : Nat) (rcv : Vector UInt32 8) : Skb :=
  forRange 0 numMcs (fun j s => putU32 s (offset + 4 * j) (rcv.toList.getD j 0)) s

def getRcv (s : Skb) (offset : Nat) : Vector UInt32 8 := Vector.ofFn fun j => getU32 s (offset + 4 * j)

def netSkbPad : Nat := 64

def tlAllocSkb (room : Bool) (dev : NetDevice) (daddr saddr : EthAddr) (size : Nat) (type : TrType) (kernel : Kernel) :
    Option Skb × Kernel :=
  if size < etherHeadLen + 1 then (none,kernel)
  else if room then
    let rpt : Skb := ⟨kernel.nextSkb,fun _ => 0,netSkbPad,size,0,netSkbPad,netSkbPad,0x1180,0,dev,0⟩
    let rpt := memcpy rpt 0 daddr.toList
    let rpt := memcpy rpt ethAlen saddr.toList
    let rpt := ((rpt.store 12 0x08).store 13 0x11).store etherHeadLen type.code
    (some rpt,{kernel with nextSkb := kernel.nextSkb + 1})
  else (none,kernel)

def devQueueXmit (s : Skb) (kernel : Kernel) : Kernel := kernel.record (.sent s s.dev)

def getRandomU32 (kernel : Kernel) : UInt32 × Kernel :=
  let (b0,kernel) := getRandomByte kernel
  let (b1,kernel) := getRandomByte kernel
  let (b2,kernel) := getRandomByte kernel
  let (b3,kernel) := getRandomByte kernel
  (b0.toUInt32 ||| b1.toUInt32 <<< 8 ||| b2.toUInt32 <<< 16 ||| b3.toUInt32 <<< 24,kernel)

def multicastAddr : EthAddr := macAddr 0x01 0x00 0x5e 0x00 0x00 0x01

def trainingFrame (type : TrType) (room : Bool) (dev : NetDevice) (k trId : UInt32) (mcs : UInt8) (i : Nat) (kernel : Kernel) :
    Kernel :=
  match tlAllocSkb room dev multicastAddr dev.devAddr tfSize type kernel with
  | (none,kernel) => kernel
  | (some otf,kernel) =>
    let otf := putU32 otf (etherHeadLen + 1) k
    let otf := putU32 otf (etherHeadLen + 5) (UInt32.ofNat i)
    let otf := putU32 otf (etherHeadLen + 9) trId
    let otf := otf.store (etherHeadLen + 13) mcs
    let (otf,kernel) := forRange (etherHeadLen + 14) tfSize (fun o (s : Skb × Kernel) =>
      let (v,kernel) := getRandomByte s.2
      (s.1.store o v,kernel)) (otf,kernel)
    devQueueXmit otf kernel

def sendTrainingFrames (type : TrType) (room : Nat → Bool) (dev : Option NetDevice) (k trId : UInt32) (mcs : UInt8)
    (kernel : Kernel) : Returns Kernel :=
  if k = 0 then some kernel
  else dev.map fun dev => forRange 0 k.toNat (fun i kernel => trainingFrame type (room i) dev k trId mcs i kernel) kernel

def drawTrId (last : UInt32) (kernel : Kernel) : UInt32 × Kernel :=
  let (trId,kernel) := getRandomU32 kernel
  if trId = last then getRandomU32 kernel else (trId,kernel)

-- From 8 on the source counts behind rcv_num, in other memory: no record stands for that.
def countRcv (mcs : UInt8) (info : TrInfo) : Returns TrInfo :=
  if h : mcs.toNat < 8 then
    some {info with rcvNum := info.rcvNum.set mcs.toNat (info.rcvNum[mcs.toNat] + 1)}
  else none

theorem trInfoUpdate_addr (same : ∀ info : TrInfo, (change info).addr = info.addr) (list : List TrInfo) :
    (trInfoUpdate addr change list).map TrInfo.addr = list.map TrInfo.addr := by
  induction list with
  | nil => rfl
  | cons info rest ih =>
    unfold trInfoUpdate
    split
    · simp [same]
    · simp [ih]

theorem trInfoUpdate_length (addr : EthAddr) (change : TrInfo → TrInfo) (list : List TrInfo) :
    (trInfoUpdate addr change list).length = list.length := by
  induction list with
  | nil => rfl
  | cons info rest ih =>
    unfold trInfoUpdate
    split
    · rfl
    · simp [ih]

theorem trInfoFindAddr_none (missing : trInfoFindAddr list addr = none) : addr ∉ list.map (·.addr) := by
  intro member
  obtain ⟨info,here,rfl⟩ := List.mem_map.mp member
  have other := List.find?_eq_none.mp missing info here
  simp at other

theorem trInfoInsert_distinct (distinct : (list.map TrInfo.addr).Nodup) (missing : trInfoFindAddr list new.addr = none) :
    ((trInfoInsert new list).map TrInfo.addr).Nodup := by
  rw [trInfoInsert,List.map_append,List.nodup_append]
  refine ⟨distinct,List.nodup_singleton _,?_⟩
  rintro a member b last rfl
  rw [List.map_singleton,List.mem_singleton] at last
  subst last
  exact trInfoFindAddr_none missing member

namespace Sample

def dev : NetDevice := ⟨macAddr 0x02 0 0 0 0 0x01⟩
def source : EthAddr := macAddr 0x02 0 0 0 0 0x09
def frame (saddr : EthAddr) (payload : List UInt8) : Skb :=
  ⟨0,fun a => (dev.devAddr.toList ++ saddr.toList ++ [0x08,0x11] ++ payload).getD a 0,14,payload.length,0,14,14,0x1180,0,dev,0⟩
def room : Nat → Bool := fun _ => true

end Sample

end Mac80211.TlRx

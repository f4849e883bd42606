import Mac80211.RxReorder
import Mac80211.Tkip

namespace Mac80211.TxTspec
open RxReorder (Jiffies timeAfter)
open Tkip (le16)

abbrev Ac := Fin 4

theorem someAcs : NeZero 4 := ⟨by decide⟩

attribute [local instance] someAcs

structure TxQueueParams where
  txop : UInt16
  cwMin : UInt16
  cwMax : UInt16
  aifs : UInt8
  acm : Bool
  uapsd : Bool
deriving DecidableEq

inductive Action where
  | none | downgrade | stopDowngrade
deriving DecidableEq

-- The admitted time is 32 times what the access point granted in a u16.
structure Tspec where
  timeSliceStart : Jiffies
  admitted : UInt16
  consumedTxTime : UInt32
  action : Action
  downgraded : Bool

def Tspec.admittedTime (t : Tspec) : UInt32 := 32 * t.admitted.toUInt32

-- And which entry of tx_conf it was; 4 is what lies behind the array.
structure InUse where
  entry : Nat
  params : TxQueueParams

-- A call of drv_conf_tx, with the array at that time.
structure Call where
  ac : Ac
  params : TxQueueParams
  txConf : Ac → TxQueueParams

structure Config where
  hz : Jiffies
  small : hz < 0x8000000000000000
  queues : Nat

structure Sdata where
  uapsdEnabled : Bool
  uapsdQueues : UInt8
  wmmLastParamSet : Option UInt8
  wmmAcm : UInt8
  txConf : Ac → TxQueueParams
  txTspec : Ac → Tspec
  driver : Ac → InUse
  calls : List Call
  qos : Bool

def Sdata.setTspec (s : Sdata) (ac : Ac) (t : Tspec) : Sdata := {s with txTspec := Function.update s.txTspec ac t}

def acFromTid (tid : UInt8) : Ac :=
  match (tid &&& 7).toNat with
  | 0 | 3 => 2
  | 1 | 2 => 3
  | 4 | 5 => 1
  | _ => 0

-- The memory from its header on, whatever the kind of frame.
abbrev Frame := Nat → UInt8

def frameControl (hdr : Frame) : UInt16 := le16 hdr 0

def qosTid (hdr : Frame) : UInt8 := hdr (if Ieee80211.hasA4 (frameControl hdr) then 30 else 24) &&& 0x0f

def frameAc (hdr : Frame) : Ac := acFromTid (qosTid hdr)

-- What the driver answers to conf_tx, and what lies behind tx_conf.
structure Answers where
  accepts : Ac → TxQueueParams → Bool
  beyond : TxQueueParams

def Answers.takes (a : Answers) (ac : Ac) (params : TxQueueParams) : Bool :=
  params.cwMin != 0 && decide (params.cwMin ≤ params.cwMax) && a.accepts ac params

def drvConfTx (a : Answers) (ac : Ac) (entry : Nat) (params : TxQueueParams) (s : Sdata) : Sdata :=
  let s := {s with calls := s.calls ++ [⟨ac,params,s.txConf⟩]}
  if a.takes ac params then {s with driver := Function.update s.driver ac ⟨entry,params⟩} else s

-- The search goes on to 4 if there is none.
def nonAcmAc (wmmAcm : UInt8) (ac : Ac) : Nat :=
  ((List.range' (ac.val + 1) (3 - ac.val)).find? fun lower => wmmAcm &&& (1 <<< UInt8.ofNat (7 - 2 * lower)) == 0).getD 4

def confAt (a : Answers) (s : Sdata) (entry : Nat) : TxQueueParams := if bound : entry < 4 then s.txConf ⟨entry,bound⟩ else a.beyond

section tspec
variable (cfg : Config)

def expired (t : Tspec) (now : Jiffies) : Bool := timeAfter now (t.timeSliceStart + cfg.hz)

-- With the given action if the queue is downgraded.
def newSlice (t : Tspec) (now : Jiffies) : Tspec := {t with
  consumedTxTime := 0
  timeSliceStart := now
  action := if t.downgraded then .stopDowngrade else t.action}

def handleAction (a : Answers) (now : Jiffies) (s : Sdata) (ac : Ac) (t : Tspec) : Sdata :=
  match t.action with
  | .stopDowngrade => (drvConfTx a ac ac.val (s.txConf ac) s).setTspec ac {t with action := .none,downgraded := false}
  | .downgrade =>
    if expired cfg t now then s.setTspec ac {t with action := .none}
    else
      let entry := nonAcmAc s.wmmAcm ac
      (drvConfTx a ac entry (confAt a s entry) s).setTspec ac {t with action := .none}
  | .none => s.setTspec ac t

def handleAc (a : Answers) (now : Jiffies) (s : Sdata) (ac : Ac) : Sdata :=
  let t := s.txTspec ac
  handleAction cfg a now s ac (if t.action = .none ∧ t.admittedTime ≠ 0 ∧ expired cfg t now then newSlice t now else t)

def staHandleTspecAcParams (a : Answers) (now : Jiffies) (s : Sdata) : Sdata :=
  if cfg.queues < 4 then s else [0,1,2,3].foldl (handleAc cfg a now) s

def consume (t : Tspec) (txTime : UInt16) : Tspec :=
  let t := {t with consumedTxTime := t.consumedTxTime + txTime.toUInt32}
  if t.consumedTxTime ≥ t.admittedTime then
    {t with downgraded := true,action := .downgrade}
  else t

-- For the queue that was read from the frame.
def notifyTspec (t : Tspec) (now : Jiffies) (txTime : UInt16) : Tspec :=
  if t.admittedTime = 0 then t
  else
    let t := if expired cfg t now then newSlice t now else t
    if t.downgraded then t else consume t txTime

def staTxWmmAcNotify (hdr : Frame) (txTime : UInt16) (now : Jiffies) (s : Sdata) : Sdata :=
  let ac := frameAc hdr
  s.setTspec ac (notifyTspec cfg (s.txTspec ac) now txTime)

def ecw2cw (ecw : UInt8) : UInt16 := (1 <<< ecw.toUInt16) - 1

def aciQueue (aci : UInt8) : Ac × UInt8 × UInt8 :=
  if aci = 1 then (3,0x06,0x04)
  else if aci = 2 then (1,0x30,0x02)
  else if aci = 3 then (0,0xc0,0x01)
  else (2,0x09,0x08)

def wmmEntry (uapsdQueues b0 b1 b2 b3 : UInt8) : TxQueueParams := {
  txop := b2.toUInt16 ||| (b3.toUInt16 <<< 8)
  cwMin := ecw2cw (b1 &&& 0x0f)
  cwMax := ecw2cw ((b1 &&& 0xf0) >>> 4)
  aifs := b0 &&& 0x0f
  acm := (b0 >>> 4) &&& 1 == 1
  uapsd := uapsdQueues &&& (aciQueue ((b0 >>> 5) &&& 3)).2.2 != 0}

-- The driver gets the parameters only if the queue is not downgraded.
def wmmRecord (a : Answers) (uapsdQueues b0 b1 b2 b3 : UInt8) (s : Sdata) : Sdata :=
  let (queue,bits,_) := aciQueue ((b0 >>> 5) &&& 3)
  let params := wmmEntry uapsdQueues b0 b1 b2 b3
  let s := {s with
    wmmAcm := if params.acm then s.wmmAcm ||| bits else s.wmmAcm
    txConf := Function.update s.txConf queue params}
  if (s.txTspec queue).downgraded then s else drvConfTx a queue queue.val params s

def wmmRecords (a : Answers) (uapsdQueues : UInt8) : List UInt8 → Sdata → Sdata
  | b0 :: b1 :: b2 :: b3 :: rest,s => wmmRecords a uapsdQueues rest (wmmRecord a uapsdQueues b0 b1 b2 b3 s)
  | _,s => s

-- conf_tx and the element are there.
def staWmmParams (a : Answers) (wmmParam : List UInt8) (s : Sdata) : Sdata :=
  if cfg.queues < 4 then s
  else if wmmParam.length < 8 ∨ wmmParam.getD 5 0 ≠ 1 then s
  else
    let count := wmmParam.getD 6 0 &&& 0x0f
    if s.wmmLastParamSet = some count then s
    else
      let s := wmmRecords a (if s.uapsdEnabled then s.uapsdQueues else 0) (wmmParam.drop 8) {s with
        wmmLastParamSet := some count
        wmmAcm := 0}
      {s with qos := true}

end tspec

inductive Event where
  | notify (hdr : Frame) (txTime : UInt16) (now : Jiffies)
  | work (a : Answers) (now : Jiffies)
  | wmmParams (a : Answers) (wmmParam : List UInt8)

def step (cfg : Config) (s : Sdata) : Event → Sdata
  | .notify hdr txTime now => staTxWmmAcNotify cfg hdr txTime now s
  | .work a now => staHandleTspecAcParams cfg a now s
  | .wmmParams a wmmParam => staWmmParams cfg a wmmParam s

end Mac80211.TxTspec

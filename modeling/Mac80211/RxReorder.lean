import Mac80211.Loops
import Mathlib.Data.Finset.Card
import Mathlib.Algebra.Ring.Nat
import Mathlib.Algebra.Ring.Int.Defs

namespace Mac80211.RxReorder
open Loops

def snLess (sn1 sn2 : Nat) : Bool := decide (((sn1 : Int) - sn2) % 4096 > 2048)
def snAdd (sn1 sn2 : Nat) : Nat := (sn1 + sn2) % 4096
def snInc (sn : Nat) : Nat := snAdd sn 1
def snSub (sn1 sn2 : Nat) : Nat := (((sn1 : Int) - sn2) % 4096).toNat

abbrev Jiffies := UInt64
def timeAfter (a b : Jiffies) : Bool := decide (0x8000000000000000 ≤ b - a)

def ieee80211MaxAmpduBuf : Nat := 0x40

-- HZ is chosen when the kernel is configured.
def htRxReorderBufTimeout (hz : UInt16) : Jiffies := (hz / 10).toUInt64

structure Mpdu (α : Type) where
  seqCtrl : UInt16
  amsduMore : Bool
  data : α

def Mpdu.seqNum (skb : Mpdu α) : Nat := ((skb.seqCtrl &&& 0xfff0) >>> 4).toNat

structure TidAmpduRx (α : Type) where
  reorderBuf : Nat → List (Mpdu α)
  reorderTime : Nat → Jiffies
  reorderTimer : Option Jiffies
  headSeqNum : Nat
  storedMpduNum : Nat
  ssn : Nat
  bufSize : Nat
  autoSeq : Bool
  removed : Bool

-- With the frames released to the stack.
abbrev Work (α : Type) := TidAmpduRx α × List (Mpdu α)

def rxReorderReady (frames : List (Mpdu α)) : Bool :=
  match frames.getLast? with
  | none => false
  | some tail => !tail.amsduMore

def TidAmpduRx.skbQueuePurge (s : TidAmpduRx α) (index : Nat) : TidAmpduRx α :=
  {s with reorderBuf := Function.update s.reorderBuf index []}

def releaseReorderFrame (index : Nat) : Work α → Work α
  | (s,frames) =>
    let skbList := s.reorderBuf index
    let noFrame (w : Work α) : Work α := ({w.1 with headSeqNum := snInc w.1.headSeqNum},w.2)
    if skbList.isEmpty then noFrame (s,frames)
    else if !rxReorderReady skbList then noFrame (s.skbQueuePurge index,frames)
    else noFrame ({s.skbQueuePurge index with storedMpduNum := (s.storedMpduNum + 65535) % 65536},frames ++ skbList)

def releaseReorderFrames (fuel headSeqNum : Nat) (w : Work α) : Option (Work α) :=
  whileM (fun w => snLess w.1.headSeqNum headSeqNum)
    (fun w => some (releaseReorderFrame (w.1.headSeqNum % w.1.bufSize) w)) fuel w

structure Scan (α : Type) where
  work : Work α
  skipped : Nat
  j : Nat
  out : Bool

def purgeSkipped (fuel index j : Nat) (s : TidAmpduRx α) : Option (TidAmpduRx α) :=
  (whileM (fun (p : TidAmpduRx α × Nat) => p.2 != j)
    (fun p => some (p.1.skbQueuePurge p.2,(p.2 + 1) % p.1.bufSize)) fuel (s,(index + 1) % s.bufSize)).map Prod.fst

def scanBody (fuel : Nat) (hz : UInt16) (jiffies : Jiffies) (index : Nat) (scan : Scan α) : Option (Scan α) :=
  let s := scan.work.1
  if !rxReorderReady (s.reorderBuf scan.j) then
    some {scan with skipped := scan.skipped + 1,j := (scan.j + 1) % s.bufSize}
  else if scan.skipped != 0 && !timeAfter jiffies (s.reorderTime scan.j + htRxReorderBufTimeout hz) then
    some {scan with out := true}
  else
    (purgeSkipped fuel index scan.j s).bind fun s =>
      let w := releaseReorderFrame scan.j (s,scan.work.2)
      some {scan with
        work := ({w.1 with headSeqNum := snAdd w.1.headSeqNum scan.skipped},w.2),
        skipped := 0,
        j := (scan.j + 1) % s.bufSize}

def scanTimedOut (fuel : Nat) (hz : UInt16) (jiffies : Jiffies) (index : Nat) (w : Work α) : Option (Scan α) :=
  whileM (fun scan => scan.j != index && !scan.out) (scanBody fuel hz jiffies index) fuel
    ⟨w,1,(index + 1) % w.1.bufSize,false⟩

def releaseReady (fuel : Nat) (w : Work α) : Option (Work α) :=
  whileM (fun w => rxReorderReady (w.1.reorderBuf (w.1.headSeqNum % w.1.bufSize)))
    (fun w => some (releaseReorderFrame (w.1.headSeqNum % w.1.bufSize) w)) fuel w

def setReleaseTimer (hz : UInt16) (j : Nat) (s : TidAmpduRx α) : TidAmpduRx α :=
  if !s.removed then {s with reorderTimer := some (s.reorderTime j + 1 + htRxReorderBufTimeout hz)} else s

-- C divides towards zero: (index - 1) % buf_size is -1 for index 0, which no slot is.
def searchTimer (fuel index : Nat) (s : TidAmpduRx α) : Option Nat :=
  whileM (fun (j : Nat) => (j : Int) != Int.tmod ((index : Int) - 1) s.bufSize && !rxReorderReady (s.reorderBuf j))
    (fun j => some ((j + 1) % s.bufSize)) fuel index

def setTimer (fuel : Nat) (hz : UInt16) (w : Work α) : Option (Work α) :=
  if w.1.storedMpduNum != 0 then
    (searchTimer fuel (w.1.headSeqNum % w.1.bufSize) w.1).bind fun j => some (setReleaseTimer hz j w.1,w.2)
  else some ({w.1 with reorderTimer := none},w.2)

def staReorderRelease (fuel : Nat) (hz : UInt16) (jiffies : Jiffies) (w : Work α) : Option (Work α) :=
  let index := w.1.headSeqNum % w.1.bufSize
  if !rxReorderReady (w.1.reorderBuf index) && w.1.storedMpduNum != 0 then
    (scanTimedOut fuel hz jiffies index w).bind fun scan =>
      if scan.out then some (setReleaseTimer hz scan.j scan.work.1,scan.work.2) else setTimer fuel hz scan.work
  else
    (releaseReady fuel w).bind (setTimer fuel hz)

-- The source returns false for process and true for the others, of which the first two free the frame.
inductive Verdict where
  | outOfDate
  | alreadyStored
  | process
  | stored
deriving DecidableEq

def pickStart (mpduSeqNum : Nat) (s : TidAmpduRx α) : TidAmpduRx α :=
  if s.autoSeq then {s with autoSeq := false,ssn := mpduSeqNum,headSeqNum := mpduSeqNum} else s

def makeRoom (fuel mpduSeqNum : Nat) (w : Work α) : Option (Work α) :=
  if !snLess mpduSeqNum (w.1.headSeqNum + w.1.bufSize) then
    releaseReorderFrames fuel (snInc (snSub mpduSeqNum w.1.bufSize)) w
  else some w

def TidAmpduRx.queueTail (s : TidAmpduRx α) (index : Nat) (skb : Mpdu α) : TidAmpduRx α :=
  {s with reorderBuf := Function.update s.reorderBuf index (s.reorderBuf index ++ [skb])}

def TidAmpduRx.countStored (s : TidAmpduRx α) (index : Nat) (jiffies : Jiffies) : TidAmpduRx α :=
  {s with reorderTime := Function.update s.reorderTime index jiffies,storedMpduNum := (s.storedMpduNum + 1) % 65536}

-- ieee80211_sta_manage_reorder_buf, once the frame is in the range of the buffer.
def placeFrame (fuel : Nat) (hz : UInt16) (jiffies : Jiffies) (skb : Mpdu α) (w : Work α) : Option (Work α × Verdict) :=
  let s := w.1
  let index := skb.seqNum % s.bufSize
  if rxReorderReady (s.reorderBuf index) then some (w,.alreadyStored)
  else if skb.seqNum == s.headSeqNum && s.storedMpduNum == 0 then
    if !skb.amsduMore then some (({s with headSeqNum := snInc s.headSeqNum},w.2),.process) else some (w,.process)
  else
    let s := s.queueTail index skb
    if !skb.amsduMore then (staReorderRelease fuel hz jiffies (s.countStored index jiffies,w.2)).map (·,.stored)
    else some ((s,w.2),.stored)

def staManageReorderBuf (fuel : Nat) (hz : UInt16) (jiffies : Jiffies) (s : TidAmpduRx α) (skb : Mpdu α) :
    Option (Work α × Verdict) :=
  let s := pickStart skb.seqNum s
  if snLess skb.seqNum s.headSeqNum then some ((s,[]),.outOfDate)
  else (makeRoom fuel skb.seqNum (s,[])).bind (placeFrame fuel hz jiffies skb)

def rxReorderAmpdu (fuel : Nat) (hz : UInt16) (jiffies : Jiffies) (s : TidAmpduRx α) (skb : Mpdu α) : Option (Work α) :=
  (staManageReorderBuf fuel hz jiffies s skb).map fun r => (r.1.1,if r.2 = .process then r.1.2 ++ [skb] else r.1.2)

def rxHCtrl (fuel : Nat) (s : TidAmpduRx α) (startSeqNum : UInt16) : Option (Work α) :=
  releaseReorderFrames fuel (startSeqNum >>> 4).toNat (s,[])

def releaseReorderTimeout (fuel : Nat) (hz : UInt16) (jiffies : Jiffies) (s : TidAmpduRx α) : Option (Work α) :=
  staReorderRelease fuel hz jiffies ({s with reorderTimer := none},[])

-- For a session that others may still have found.
def stopRxBaSession (s : TidAmpduRx α) : TidAmpduRx α := {s with removed := true,reorderTimer := none}

-- A driver may lower IEEE80211_MAX_AMPDU_BUF.
structure Hw where
  maxRxAggregationSubframes : Nat
  positive : 0 < maxRxAggregationSubframes

structure AddbaReq where
  htSupported : Bool
  blockBa : Bool
  delayBa : Bool
  baPolicy : Nat
  bufSize : Nat
  startSeqNum : UInt16
  autoSeq : Bool
  allocated : Bool
  ampduAction : Bool

def startRxBaSession (hw : Hw) (req : AddbaReq) (memory : TidAmpduRx α) : Option (TidAmpduRx α) :=
  let startSeqNum := (req.startSeqNum >>> 4).toNat
  if !req.htSupported then none
  else if req.blockBa then none
  else if (req.baPolicy != 1 && !req.delayBa) || req.bufSize > ieee80211MaxAmpduBuf then none
  else
    let bufSize := if req.bufSize = 0 then ieee80211MaxAmpduBuf else req.bufSize
    let bufSize := if bufSize > hw.maxRxAggregationSubframes then hw.maxRxAggregationSubframes else bufSize
    if !req.allocated then none
    else if !req.ampduAction then none
    else some {memory with
      reorderTimer := none,
      reorderBuf := fun _ => [],
      reorderTime := fun _ => 0,
      ssn := startSeqNum,
      headSeqNum := startSeqNum,
      bufSize := bufSize,
      storedMpduNum := 0,
      autoSeq := req.autoSeq}

inductive Event (α : Type) where
  | mpdu (jiffies : Jiffies) (skb : Mpdu α)
  | bar (startSeqNum : UInt16)
  | timeout (jiffies : Jiffies)
  | stop

def step (fuel : Nat) (hz : UInt16) : Event α → TidAmpduRx α → Option (Work α)
  | .mpdu jiffies skb,s => rxReorderAmpdu fuel hz jiffies s skb
  | .bar startSeqNum,s => rxHCtrl fuel s startSeqNum
  | .timeout jiffies,s => releaseReorderTimeout fuel hz jiffies s
  | .stop,s => some (stopRxBaSession s,[])

def run (fuel : Nat) (hz : UInt16) : List (Event α) → TidAmpduRx α → Option (Work α)
  | [],s => some (s,[])
  | e :: events,s => (step fuel hz e s).bind fun u => (run fuel hz events u.1).map fun v => (v.1,u.2 ++ v.2)

def enough : Nat := 4096

end Mac80211.RxReorder

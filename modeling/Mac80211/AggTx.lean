import Mac80211.RxReorder

namespace Mac80211.AggTx
open RxReorder (Jiffies timeAfter)

def aggMaxRetries : UInt8 := 15
def aggBurstRetries : UInt8 := 3

abbrev TidNum := Fin 16

structure State where
  drvReady : Bool
  responseReceived : Bool
  operational : Bool
  stopping : Bool
  wantStart : Bool
  wantStop : Bool
deriving DecidableEq

inductive BackParty where
  | recipient | initiator
deriving DecidableEq

structure TidAmpduTx where
  id : Nat
  sessionTimer : Bool
  addbaRespTimer : Bool
  state : State
  lastTx : Jiffies
  timeout : UInt16
  dialogToken : UInt8
  stopInitiator : BackParty
  txStop : Bool
  bufSize : UInt8
deriving DecidableEq

inductive StopReason where
  | declined | localRequest | peerRequest | destroySta
deriving DecidableEq

inductive AmpduAction where
  | txStart (ssn : UInt16)
  | txStopCont
  | txStopFlush
  | txStopFlushCont
  | txOperational (bufSize : UInt8)
deriving DecidableEq

inductive Out where
  | ampdu (tid : TidNum) (action : AmpduAction)
  | addbaRequest (tid : TidNum) (dialogToken : UInt8) (startSeqNum aggSize timeout : UInt16)
  | delba (tid : TidNum)
deriving DecidableEq

inductive Errno where
  | inval | busy | again | nomem | noent

structure Tid where
  tidTx : Option TidAmpduTx
  startTx : Option TidAmpduTx
  lastAddbaReqTime : Jiffies
  addbaReqNum : UInt8
  tidSeq : UInt16
deriving DecidableEq

inductive VifType where
  | station | meshPoint | apVlan | ap | adhoc | other
deriving DecidableEq

structure Cfg where
  hz : UInt16
  htSupported : Bool
  ampduAction : Bool
  ampduAggregation : Bool
  txAmpduSetupInHw : Bool
  vifType : VifType
  maxTxAggregationSubframes : UInt16
deriving DecidableEq

-- next is where the session work goes on after a stop.
inductive Section where
  | work (tid : Nat)
  | handleStart (tid : TidNum)
  | drvStart (tid : TidNum)
  | wantStop (tid : TidNum)
  | stop (tid : TidNum) (reason : StopReason) (next : Option Nat)
  | stopAddbaTimer (tid : TidNum) (reason : StopReason) (next : Option Nat)
  | stopSessionTimer (tid : TidNum) (reason : StopReason) (next : Option Nat)
  | stopClear (tid : TidNum) (reason : StopReason) (next : Option Nat)
  | stopDrv (tid : TidNum) (reason : StopReason) (next : Option Nat)
  | startCb (tid : TidNum)
  | startCbReady (tid : TidNum)
  | addbaResp (tid : TidNum) (bufSize : UInt8) (status : UInt16) (dialogToken : UInt8)
  | addbaTimer (tid : TidNum) (bufSize : UInt8) (status : UInt16)
  | addbaStatus (tid : TidNum) (bufSize : UInt8) (status : UInt16)
  | addbaReady (tid : TidNum)
  | addbaDone (tid : TidNum)
  | operational (tid : TidNum) (addba : Bool)
  | stopCb (tid : TidNum)
deriving DecidableEq

inductive Queued where
  | aggStart (tid : UInt16)
  | aggStop (tid : UInt16)
  | addbaResp (capab status : UInt16) (dialogToken : UInt8)
  | delba (params : UInt16)
deriving DecidableEq

inductive Handler where
  | addbaResp (tid : TidNum)
  | session (tid : TidNum)
deriving DecidableEq

def Handler.tid : Handler → TidNum
  | .addbaResp tid => tid
  | .session tid => tid

structure World where
  cfg : Cfg
  jiffies : Jiffies
  tids : Vector Tid 16
  blockBa : Bool
  reservedTid : UInt8
  dialogTokenAllocator : UInt8
  workPending : Bool
  mtx : Option Section
  queue : List Queued
  handlers : List Handler
  allocated : Nat
  out : List Out
deriving DecidableEq

def World.tid (w : World) (tid : TidNum) : Tid := w.tids[tid]
def World.setTid (w : World) (tid : TidNum) (t : Tid) : World := {w with tids := w.tids.set tid t}
def World.tidTx (w : World) (tid : TidNum) : Option TidAmpduTx := (w.tid tid).tidTx
def World.assignTidTx (w : World) (tid : TidNum) (tx : Option TidAmpduTx) : World := w.setTid tid {w.tid tid with tidTx := tx}
def World.emit (w : World) (out : List Out) : World := {w with out := w.out ++ out}
def World.goTo (w : World) (s : Section) : World := {w with mtx := some s}
def World.unlock (w : World) : World := {w with mtx := none}

def World.resume (w : World) (next : Option Nat) : World := {w with mtx := next.map .work}

def VifType.aggregates : VifType → Bool
  | .other => false
  | _ => true

def newTidTx (id : Nat) (timeout : UInt16) (dialogToken : UInt8) : TidAmpduTx where
  id := id
  sessionTimer := false
  addbaRespTimer := false
  state := ⟨false,false,false,false,true,false⟩
  lastTx := 0
  timeout := timeout
  dialogToken := dialogToken
  stopInitiator := .recipient
  txStop := false
  bufSize := 0

def aggRetriesPeriod (hz : UInt16) : Jiffies := 15 * hz.toUInt64

def World.tooMany (w : World) (t : Tid) : Bool :=
  decide (t.addbaReqNum > aggMaxRetries) ||
    decide (t.addbaReqNum > aggBurstRetries) && timeAfter (t.lastAddbaReqTime + aggRetriesPeriod w.cfg.hz) w.jiffies

-- What ieee80211_start_tx_ba_session answers with EINVAL, besides a too large TID.
def World.refusesTxBa (w : World) (tid : UInt16) : Bool :=
  w.reservedTid.toUInt16 == tid || !w.cfg.htSupported || !w.cfg.ampduAction || !w.cfg.ampduAggregation ||
    w.cfg.txAmpduSetupInHw || !w.cfg.vifType.aggregates || w.blockBa || w.cfg.vifType == .adhoc && !w.cfg.htSupported

def World.startTxBaTid (w : World) (tid : TidNum) (timeout : UInt16) (alloc : Bool) : World × Except Errno Unit :=
  let t := w.tid tid
  if w.tooMany t then (w,.error .busy)
  else if t.tidTx.isSome || t.startTx.isSome then (w,.error .again)
  else if !alloc then (w,.error .nomem)
  else
    let token := w.dialogTokenAllocator + 1
    let w := w.setTid tid {t with startTx := some (newTidTx w.allocated timeout token)}
    ({w with dialogTokenAllocator := token,allocated := w.allocated + 1,workPending := true},.ok ())

def World.startTxBaSession (w : World) (tid timeout : UInt16) (alloc : Bool) : World × Except Errno Unit :=
  if small : tid.toNat < 16 then
    if w.refusesTxBa tid then (w,.error .inval) else w.startTxBaTid ⟨tid.toNat,small⟩ timeout alloc
  else (w,.error .inval)

def World.stopTxBaTid (w : World) (tid : TidNum) : World × Except Errno Unit :=
  match w.tidTx tid with
  | none => (w,.error .noent)
  | some tx =>
    if tx.state.stopping then (w,.ok ())
    else ({w.assignTidTx tid (some {tx with state.wantStop := true}) with workPending := true},.ok ())

def World.stopTxBaSession (w : World) (tid : UInt16) : World × Except Errno Unit :=
  if small : tid.toNat < 16 then
    if !w.cfg.ampduAction then (w,.error .inval) else w.stopTxBaTid ⟨tid.toNat,small⟩
  else (w,.error .inval)

def World.addbaRespTimerExpired (w : World) (tid : TidNum) (tx : TidAmpduTx) : World :=
  let w := w.assignTidTx tid (some {tx with addbaRespTimer := false})
  if tx.state.responseReceived then w else {w with handlers := w.handlers ++ [.addbaResp tid]}

def tuToJiffies (hz : UInt16) (tu : UInt16) : Jiffies := UInt64.ofNat ((tu.toNat * 1024 * hz.toNat + 999999) / 1000000)

def World.sessionTimerExpired (w : World) (tid : TidNum) (tx : TidAmpduTx) : World :=
  let idle := w.assignTidTx tid (some {tx with sessionTimer := false})
  if tx.state.stopping then idle
  else if timeAfter (tx.lastTx + tuToJiffies w.cfg.hz tx.timeout) w.jiffies then w
  else {idle with handlers := idle.handlers ++ [.session tid]}

def World.workTid (w : World) (tid : TidNum) : World :=
  let t := w.tid tid
  match t.startTx with
  | none => w.goTo (.wantStop tid)
  | some start => (w.setTid tid {t with startTx := none,tidTx := some (t.tidTx.getD start)}).goTo (.handleStart tid)

def World.update (w : World) (tid : TidNum) (f : TidAmpduTx → TidAmpduTx) : World :=
  w.assignTidTx tid ((w.tidTx tid).map f)

def World.drvStart (w : World) (tid : TidNum) (accepted : Bool) : World :=
  let t := w.tid tid
  let ssn := t.tidSeq >>> 4
  let w := w.emit [.ampdu tid (.txStart ssn)]
  if !accepted then (w.assignTidTx tid none).goTo (.work (tid + 1))
  else
    match t.tidTx with
    | none => w.goTo (.work (tid + 1))
    | some tx =>
      ((w.setTid tid {t with
        tidTx := some {tx with addbaRespTimer := true},
        lastAddbaReqTime := w.jiffies,
        addbaReqNum := t.addbaReqNum + 1}).emit
        [.addbaRequest tid tx.dialogToken ssn w.cfg.maxTxAggregationSubframes tx.timeout]).goTo (.work (tid + 1))

def World.stop (w : World) (tid : TidNum) (reason : StopReason) (next : Option Nat) : World :=
  match w.tidTx tid with
  | none => w.resume next
  | some tx =>
    if tx.state.stopping then
      (if reason == .destroySta then w.emit [.ampdu tid .txStopFlushCont] else w).resume next
    else if tx.state.wantStart then (w.assignTidTx tid none).resume next
    else (w.assignTidTx tid (some {tx with state.stopping := true})).goTo (.stopAddbaTimer tid reason next)

def StopReason.action : StopReason → AmpduAction
  | .destroySta => .txStopFlush
  | _ => .txStopCont

def World.stopDrv (w : World) (tid : TidNum) (reason : StopReason) (next : Option Nat) : World :=
  ((w.update tid fun tx => {tx with
    stopInitiator := if reason == .peerRequest then .recipient else .initiator,
    txStop := reason == .localRequest}).emit [.ampdu tid reason.action]).resume next

def World.startCb (w : World) (tid : TidNum) : World :=
  match w.tidTx tid with
  | none => w.unlock
  | some tx =>
    if tx.state.drvReady then w.unlock
    else (w.assignTidTx tid (some {tx with state.drvReady := true})).goTo (.startCbReady tid)

def World.operational (w : World) (tid : TidNum) (addba : Bool) : World :=
  match w.tidTx tid with
  | none => w.unlock
  | some tx =>
    let w := (w.emit [.ampdu tid (.txOperational tx.bufSize)]).assignTidTx tid (some {tx with state.operational := true})
    if addba then w.goTo (.addbaDone tid) else w.unlock

def World.addbaResp (w : World) (tid : TidNum) (bufSize : UInt8) (status : UInt16) (dialogToken : UInt8) : World :=
  match w.tidTx tid with
  | none => w.unlock
  | some tx => if dialogToken != tx.dialogToken then w.unlock else w.goTo (.addbaTimer tid bufSize status)

def World.addbaStatus (w : World) (tid : TidNum) (bufSize : UInt8) (status : UInt16) : World :=
  match w.tidTx tid with
  | none => w.unlock
  | some tx =>
    if tx.state.wantStop || tx.state.stopping then w.unlock
    else if status == 0 && bufSize != 0 then
      if tx.state.responseReceived then w.unlock
      else
        (w.assignTidTx tid (some {tx with state.responseReceived := true,bufSize := bufSize})).goTo (.addbaReady tid)
    else w.goTo (.stop tid .declined none)

def World.addbaDone (w : World) (tid : TidNum) : World :=
  let t := w.tid tid
  (w.setTid tid {t with
    addbaReqNum := 0,
    tidTx := t.tidTx.map fun tx => if tx.timeout == 0 then tx else {tx with sessionTimer := true,lastTx := w.jiffies}}).unlock

def World.stopCb (w : World) (tid : TidNum) : World :=
  match w.tidTx tid with
  | none => w.unlock
  | some tx =>
    if !tx.state.stopping then w.unlock
    else
      let w := w.assignTidTx tid none
      (if tx.stopInitiator == .initiator && tx.txStop then w.emit [.delba tid] else w).unlock

def World.delTimerSync (w : World) (handler : Handler) (next : World) : Option World :=
  if w.handlers.contains handler then none else some next

-- accepted: the answer to IEEE80211_AMPDU_TX_START.
def World.goOn (w : World) (accepted : Bool) : Section → Option World
  | .work tid => some (if small : tid < 16 then w.workTid ⟨tid,small⟩ else w.unlock)
  | .handleStart tid => some ((w.update tid fun tx => {tx with state.wantStart := false}).goTo (.drvStart tid))
  | .drvStart tid => some (w.drvStart tid accepted)
  | .wantStop tid =>
    some (if (w.tidTx tid).any fun tx => tx.state.wantStop then
        (w.update tid fun tx => {tx with state.wantStop := false}).goTo (.stop tid .localRequest (some (tid + 1)))
      else w.goTo (.work (tid + 1)))
  | .stop tid reason next => some (w.stop tid reason next)
  | .stopAddbaTimer tid reason next =>
    w.delTimerSync (.addbaResp tid)
      ((w.update tid fun tx => {tx with addbaRespTimer := false}).goTo (.stopSessionTimer tid reason next))
  | .stopSessionTimer tid reason next =>
    w.delTimerSync (.session tid) ((w.update tid fun tx => {tx with sessionTimer := false}).goTo (.stopClear tid reason next))
  | .stopClear tid reason next =>
    some ((w.update tid fun tx => {tx with state.operational := false}).goTo (.stopDrv tid reason next))
  | .stopDrv tid reason next => some (w.stopDrv tid reason next)
  | .startCb tid => some (w.startCb tid)
  | .startCbReady tid =>
    some (if (w.tidTx tid).any fun tx => tx.state.responseReceived then w.goTo (.operational tid false) else w.unlock)
  | .addbaResp tid bufSize status dialogToken => some (w.addbaResp tid bufSize status dialogToken)
  | .addbaTimer tid bufSize status =>
    w.delTimerSync (.addbaResp tid)
      ((w.update tid fun tx => {tx with addbaRespTimer := false}).goTo (.addbaStatus tid bufSize status))
  | .addbaStatus tid bufSize status => some (w.addbaStatus tid bufSize status)
  | .addbaReady tid =>
    some (if (w.tidTx tid).any fun tx => tx.state.drvReady then w.goTo (.operational tid true) else w.goTo (.addbaDone tid))
  | .addbaDone tid => some (w.addbaDone tid)
  | .operational tid addba => some (w.operational tid addba)
  | .stopCb tid => some (w.stopCb tid)

def addbaTid (capab : UInt16) : TidNum := Fin.ofNat 16 ((capab &&& 0x003c) >>> 2).toNat
def addbaBufSize (capab : UInt16) : UInt8 := ((capab &&& 0xffc0) >>> 6).toUInt8
def delbaTid (params : UInt16) : TidNum := Fin.ofNat 16 ((params &&& 0xf000) >>> 12).toNat

-- One item of the queue of ieee80211_iface_work. The DELBA of an initiator is for a session of the
-- receiver.
def World.process (w : World) : Queued → World
  | .aggStart tid => if small : tid.toNat < 16 then w.goTo (.startCb ⟨tid.toNat,small⟩) else w
  | .aggStop tid => if small : tid.toUInt8.toNat < 16 then w.goTo (.stopCb ⟨tid.toUInt8.toNat,small⟩) else w
  | .addbaResp capab status dialogToken => w.goTo (.addbaResp (addbaTid capab) (addbaBufSize capab) status dialogToken)
  | .delba params => if (params &&& 0x0800) >>> 11 == 1 then w else w.goTo (.stop (delbaTid params) .peerRequest none)

def World.tx (w : World) (tid : TidNum) : World :=
  let t := w.tid tid
  w.setTid tid {t with
    tidSeq := (t.tidSeq + 0x10) &&& 0xfff0,
    tidTx := t.tidTx.map fun tx => if tx.state.operational && tx.timeout != 0 then {tx with lastTx := w.jiffies} else tx}

-- stop: __ieee80211_stop_tx_ba_session where sessions are torn down or a TID is reserved.
inductive Event where
  | startTxBaSession (tid timeout : UInt16) (alloc : Bool)
  | stopTxBaSession (tid : UInt16)
  | startTxBaCbIrqsafe (tid : UInt16) (alloc : Bool)
  | stopTxBaCbIrqsafe (tid : UInt16) (alloc : Bool)
  | rxAddbaResp (capab status : UInt16) (dialogToken : UInt8)
  | rxDelba (params : UInt16)
  | work
  | iface
  | stop (tid : TidNum) (reason : StopReason)
  | goOn (accepted : Bool)
  | addbaRespTimer (tid : TidNum)
  | sessionTimer (tid : TidNum)
  | handler (k : Nat)
  | tx (tid : TidNum)
  | blockBa (blocked : Bool)
  | reserve (tid : UInt8)
  | tick (jiffies : Jiffies)

def World.enqueue (w : World) (item : Queued) : World := {w with queue := w.queue ++ [item]}

def World.baSessionWork (w : World) : Option World :=
  if !w.workPending then none
  else if w.blockBa then some {w with workPending := false}
  else if w.mtx.isSome then none
  else some ({w with workPending := false}.goTo (.work 0))

def World.ifaceWork (w : World) : Option World :=
  match w.mtx,w.queue with
  | none,item :: queue => some ({w with queue := queue}.process item)
  | _,_ => none

def World.timer (w : World) (tid : TidNum) (pending : TidAmpduTx → Bool) (expired : TidAmpduTx → World) : Option World :=
  match w.tidTx tid with
  | none => none
  | some tx => if pending tx then some (expired tx) else none

def step : Event → World → Option World
  | .startTxBaSession tid timeout alloc,w => some (w.startTxBaSession tid timeout alloc).1
  | .stopTxBaSession tid,w => some (w.stopTxBaSession tid).1
  | .startTxBaCbIrqsafe tid alloc,w => some (if alloc then w.enqueue (.aggStart tid) else w)
  | .stopTxBaCbIrqsafe tid alloc,w => some (if alloc then w.enqueue (.aggStop tid) else w)
  | .rxAddbaResp capab status dialogToken,w => some (w.enqueue (.addbaResp capab status dialogToken))
  | .rxDelba params,w => some (w.enqueue (.delba params))
  | .work,w => w.baSessionWork
  | .iface,w => w.ifaceWork
  | .stop tid reason,w => if w.mtx.isSome then none else some (w.goTo (.stop tid reason none))
  | .goOn accepted,w => w.mtx.bind (w.goOn accepted)
  | .addbaRespTimer tid,w => w.timer tid TidAmpduTx.addbaRespTimer (w.addbaRespTimerExpired tid)
  | .sessionTimer tid,w => w.timer tid TidAmpduTx.sessionTimer (w.sessionTimerExpired tid)
  | .handler k,w =>
    (w.handlers[k]?).map fun handler =>
      ({w with handlers := w.handlers.eraseIdx k}.stopTxBaSession (UInt16.ofNat handler.tid)).1
  | .tx tid,w => some (w.tx tid)
  | .blockBa blocked,w => some {w with blockBa := blocked}
  | .reserve tid,w => some {w with reservedTid := tid}
  | .tick jiffies,w => some {w with jiffies := jiffies}

inductive Reach (start : World) : World → Prop where
  | refl : Reach start start
  | step (prior : Reach start before) (ran : step e before = some after) : Reach start after

def run (events : List Event) (w : World) : Option World := events.foldlM (fun w e => step e w) w

def World.Initial (w : World) : Prop :=
  w.mtx = none ∧ ∀ tid, (w.tid tid).tidTx = none ∧ (w.tid tid).startTx = none

end Mac80211.AggTx

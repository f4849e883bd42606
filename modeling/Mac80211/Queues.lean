import Mathlib.Tactic.Common
import Mathlib.Algebra.Ring.Nat
import Mathlib.Algebra.Ring.Int.Defs

namespace Mac80211.Queues

open Function (update)

inductive Reason where
  | driver | ps | csa | aggregation | suspend | skbAdd | offchannel | flush | tdlsTeardown | reserveTid
deriving DecidableEq

def Reason.all : List Reason :=
  [.driver,.ps,.csa,.aggregation,.suspend,.skbAdd,.offchannel,.flush,.tdlsTeardown,.reserveTid]

-- As __ieee80211_tx distinguishes them; active is MONITOR_FLAG_ACTIVE.
inductive VifType where
  | monitor (active : Bool)
  | apVlan (bss : Nat)
  | other

-- Interfaces are numbers, and so are the queues the driver takes frames from.
structure Config where
  hwQueues : Nat
  queueControl : Bool
  wakeTxQueue : Bool
  txqAcMaxPending : Int
  interfaces : List Nat
  vifType : Nat → VifType
  hasDev : Nat → Bool
  hwQueue : Nat → Nat → Nat
  cabQueue : Nat → Option Nat
  monitorSdata : Option Nat
  staTxq : Nat → Nat → Option Nat
  vifTxq : Nat → Option Nat
  txqVif : Nat → Nat
  txqAc : Nat → Nat

def Config.nAcs (cfg : Config) : Nat := if cfg.hwQueues < 4 then 1 else 4

-- sta: the station with the address of the frame.
structure TxSkb where
  id : Nat
  hwQueue : Nat
  queueMapping : Nat
  vif : Option Nat
  sta : Option Nat
  tid : Nat
  isData : Bool
  offchanOk : Bool
  txOffchan : Bool
  needTxprocessing : Bool
  psResponse : Bool

-- subqueue: which are stopped. handed: what the driver has, with the tx queue it came from. Not in the code:
-- passed, what ieee80211_drv_tx was given, with the tx queue for it; quiet: no subqueue was woken while it had
-- to be stopped, and no counter has wrapped.
structure World where
  queueStopReasons : Nat → Reason → Bool
  qStopReasons : Nat → Reason → Int
  pending : Nat → List TxSkb
  subqueue : Nat → Nat → Bool
  txqs : Nat → List TxSkb
  txqStop : Nat → Bool
  txqsLen : Nat → Nat → Int
  tasklet : Bool
  handed : List (Option Nat × TxSkb)
  passed : List (Option Nat × TxSkb)
  freed : List TxSkb
  calls : Nat
  quiet : Bool

def World.stopped (w : World) (queue : Nat) : Bool := Reason.all.any (w.queueStopReasons queue)

def World.setPending (w : World) (queue : Nat) (skbs : List TxSkb) : World := {w with pending := update w.pending queue skbs}

def Config.live (cfg : Config) (sdata ac : Nat) : Bool := cfg.interfaces.contains sdata && cfg.hasDev sdata && decide (ac < cfg.nAcs)

def Config.maps (cfg : Config) (queue sdata ac : Nat) : Bool := cfg.hwQueue sdata ac == queue || cfg.cabQueue sdata == some queue

section queues
variable (cfg : Config)

def wakes (w : World) (queue sdata ac : Nat) : Bool :=
  cfg.live sdata ac && !(cfg.cabQueue sdata).any w.stopped &&
    !(cfg.wakeTxQueue && decide (w.txqsLen sdata ac > cfg.txqAcMaxPending)) &&
    (cfg.hwQueue sdata ac == queue ||
      cfg.cabQueue sdata == some queue && !w.stopped (cfg.hwQueue sdata ac) && (w.pending (cfg.hwQueue sdata ac)).isEmpty)

def quietWake (w : World) (queue : Nat) : Bool :=
  cfg.interfaces.all fun sdata => (List.range cfg.nAcs).all fun ac =>
    !wakes cfg w queue sdata ac ||
      !w.stopped (cfg.hwQueue sdata ac) && (w.pending (cfg.hwQueue sdata ac)).isEmpty && (cfg.cabQueue sdata).all fun cab => (w.pending cab).isEmpty

def propagateQueueWake (w : World) (queue : Nat) : World :=
  {w with
    subqueue := fun sdata ac => w.subqueue sdata ac && !wakes cfg w queue sdata ac,
    quiet := w.quiet && quietWake cfg w queue}

def World.setReason (w : World) (queue : Nat) (reason : Reason) (bit : Bool) : World :=
  {w with queueStopReasons := update w.queueStopReasons queue (update (w.queueStopReasons queue) reason bit)}

def World.setCount (w : World) (queue : Nat) (reason : Reason) (count : Int) : World :=
  {w with qStopReasons := update w.qStopReasons queue (update (w.qStopReasons queue) reason count)}

def incr (count : Int) : Int := if count = 2147483647 then -2147483648 else count + 1
def decr (count : Int) : Int := if count = -2147483648 then 2147483647 else count - 1

def wakeQueue (w : World) (queue : Nat) (reason : Reason) (refcounted : Bool) : World :=
  if cfg.hwQueues ≤ queue then w
  else if !w.queueStopReasons queue reason then w
  else
    let count := if !refcounted then 0 else decr (w.qStopReasons queue reason)
    let w := w.setCount queue reason count
    let w := if count = 0 then w.setReason queue reason false else w
    if w.stopped queue then w
    else if (w.pending queue).isEmpty then propagateQueueWake cfg w queue
    else {w with tasklet := true}

def stopQueue (w : World) (queue : Nat) (reason : Reason) (refcounted : Bool) : World :=
  if cfg.hwQueues ≤ queue then w
  else
    let count := if !refcounted then 1 else incr (w.qStopReasons queue reason)
    let quiet := w.quiet && !(refcounted && w.qStopReasons queue reason == 2147483647)
    let was := w.queueStopReasons queue reason
    let w := (w.setCount queue reason count).setReason queue reason true
    {w with
      subqueue := if was then w.subqueue else fun sdata ac => w.subqueue sdata ac || cfg.live sdata ac && cfg.maps queue sdata ac,
      quiet := quiet}

def addPendingSkb (w : World) (skb : TxSkb) : World :=
  if skb.vif.isNone then {w with freed := w.freed ++ [skb]}
  else
    let w := stopQueue cfg w skb.hwQueue .skbAdd false
    let w := w.setPending skb.hwQueue (w.pending skb.hwQueue ++ [skb])
    wakeQueue cfg w skb.hwQueue .skbAdd false

def addStopped (w : World) (skb : TxSkb) : World :=
  if skb.vif.isNone then {w with freed := w.freed ++ [skb]}
  else
    let w := stopQueue cfg w skb.hwQueue .skbAdd false
    w.setPending skb.hwQueue (w.pending skb.hwQueue ++ [skb])

def addPendingSkbs (w : World) (skbs : List TxSkb) : World :=
  (List.range cfg.hwQueues).foldl (fun w i => wakeQueue cfg w i .skbAdd false) (skbs.foldl (addStopped cfg) w)

def txDequeue (w : World) (txq : Nat) : World × Option TxSkb :=
  if w.txqStop txq then (w,none)
  else
    match w.txqs txq with
    | [] => (w,none)
    | skb :: rest =>
      let sdata := cfg.txqVif txq
      let ac := cfg.txqAc txq
      let w := {w with
        txqs := update w.txqs txq rest,
        handed := w.handed ++ [(some txq,skb)],
        txqsLen := update w.txqsLen sdata (update (w.txqsLen sdata) ac (w.txqsLen sdata ac - 1))}
      (if w.subqueue sdata ac then propagateQueueWake cfg w (cfg.hwQueue sdata ac) else w,some skb)

inductive Op where
  | stop (queue : Nat) (reason : Reason) (refcounted : Bool)
  | wake (queue : Nat) (reason : Reason) (refcounted : Bool)
  | dequeue (txq : Nat)

def Op.run (w : World) (op : Op) : World :=
  match op with
  | .stop queue reason refcounted => stopQueue cfg w queue reason refcounted
  | .wake queue reason refcounted => wakeQueue cfg w queue reason refcounted
  | .dequeue txq => (txDequeue cfg w txq).1

-- What invoke_tx_handlers does, and the frames it makes, with their station, if it does not drop or keep
-- the frame.
structure Handled where
  ops : List Op
  skbs : Option (TxSkb × List TxSkb × Option Nat)

-- What the driver does in its n-th callback, what the handlers make of a frame, and whether its interface
-- has a channel.
structure Env where
  driver : Nat → List Op
  handlers : TxSkb → Handled
  chanctx : Nat → Bool

variable (env : Env)

def txqOf (vif sta : Option Nat) (skb : TxSkb) : Option Nat :=
  if skb.psResponse then none
  else if !skb.isData then none
  else
    match sta with
    | some sta => cfg.staTxq sta skb.tid
    | none => vif.bind cfg.vifTxq

def drvTx (vif sta : Option Nat) (w : World) (skb : TxSkb) : World :=
  let ops := env.driver w.calls
  let route := txqOf cfg vif sta skb
  let skb := {skb with vif := vif}
  let w := {w with passed := w.passed ++ [(route,skb)],calls := w.calls + 1}
  match route,vif with
  | none,_ => ops.foldl (Op.run cfg) {w with handed := w.handed ++ [(none,skb)]}
  -- sdata is a null pointer, and nothing goes on from here.
  | some _,none => w
  | some txq,some sdata =>
    let ac := cfg.txqAc txq
    let len := w.txqsLen sdata ac + 1
    ops.foldl (Op.run cfg) {w with
      txqsLen := update w.txqsLen sdata (update (w.txqsLen sdata) ac len),
      subqueue := if len ≥ cfg.txqAcMaxPending then update w.subqueue sdata (update (w.subqueue sdata) ac true)
        else w.subqueue,
      txqs := update w.txqs txq (w.txqs txq ++ [skb])}

def txFrags (vif sta : Option Nat) (txpending : Bool) (w : World) : List TxSkb → World × Bool
  | [] => (w,true)
  | skb :: rest =>
    let q := skb.hwQueue
    if w.stopped q || (!txpending && !(w.pending q).isEmpty) then
      if skb.offchanOk then
        if Reason.all.any fun reason => w.queueStopReasons q reason && reason != .offchannel then
          ({w with freed := w.freed ++ skb :: rest},true)
        else txFrags vif sta txpending (drvTx cfg env vif sta w skb) rest
      else (w.setPending q (if txpending then skb :: rest ++ w.pending q else w.pending q ++ skb :: rest),false)
    else txFrags vif sta txpending (drvTx cfg env vif sta w skb) rest

def tx (sdata : Nat) (sta : Option Nat) (txpending : Bool) (w : World) (skb : TxSkb) (rest : List TxSkb) : World × Bool :=
  match cfg.vifType sdata with
  | .monitor true => txFrags cfg env (some sdata) sta txpending w (skb :: rest)
  | .monitor false =>
    match cfg.monitorSdata with
    | some monitor =>
      txFrags cfg env (some monitor) sta txpending w ({skb with hwQueue := cfg.hwQueue monitor skb.queueMapping} :: rest)
    | none =>
      if cfg.queueControl then ({w with freed := w.freed ++ [skb]},true)
      else txFrags cfg env none sta txpending w (skb :: rest)
  | .apVlan bss => txFrags cfg env (some bss) sta txpending w (skb :: rest)
  | .other => txFrags cfg env (some sdata) sta txpending w (skb :: rest)

-- With ieee80211_tx for the frames not processed yet.
def txPendingSkb (sdata : Nat) (w : World) (skb : TxSkb) : World × Bool :=
  if skb.needTxprocessing then
    if !env.chanctx sdata then ({w with freed := w.freed ++ [skb]},true)
    else
      let queue := if !skb.txOffchan || !cfg.queueControl then cfg.hwQueue sdata skb.queueMapping else skb.hwQueue
      let handled := env.handlers {skb with hwQueue := queue,needTxprocessing := false}
      let w := handled.ops.foldl (Op.run cfg) w
      match handled.skbs with
      | none => (w,true)
      | some (first,rest,sta) => tx cfg env sdata sta true w first rest
  else tx cfg env sdata skb.sta true w skb []

-- One queue of ieee80211_tx_pending. Each turn takes a frame and, if another follows, adds none.
def pendingLoop (i : Nat) : Nat → World → World
  | 0,w => w
  | turns + 1,w =>
    match w.pending i with
    | [] => w
    | skb :: rest =>
      let w := w.setPending i rest
      match skb.vif with
      | none => pendingLoop i turns {w with freed := w.freed ++ [skb]}
      | some sdata =>
        let out := txPendingSkb cfg env sdata w skb
        if out.2 then pendingLoop i turns out.1 else out.1

def pendingQueue (w : World) (i : Nat) : World :=
  if w.stopped i || (w.pending i).isEmpty then w
  else
    let w := pendingLoop cfg env i (w.pending i).length w
    if (w.pending i).isEmpty then propagateQueueWake cfg w i else w

def txPending (w : World) : World := (List.range cfg.hwQueues).foldl (pendingQueue cfg env) {w with tasklet := false}

end queues

-- The frames that tx and txFrags get are processed already.
inductive Event where
  | op (op : Op)
  | addPendingSkb (skb : TxSkb)
  | addPendingSkbs (skbs : List TxSkb)
  | txFrags (vif sta : Option Nat) (skbs : List TxSkb)
  | tx (sdata : Nat) (sta : Option Nat) (skb : TxSkb) (rest : List TxSkb)
  | txPending
  | txqStop (txq : Nat) (bit : Bool)

def step (cfg : Config) (w : World) (e : Event × Env) : World :=
  match e.1 with
  | .op op => op.run cfg w
  | .addPendingSkb skb => addPendingSkb cfg w skb
  | .addPendingSkbs skbs => addPendingSkbs cfg w skbs
  | .txFrags vif sta skbs => (txFrags cfg e.2 vif sta false w skbs).1
  | .tx sdata sta skb rest => (tx cfg e.2 sdata sta false w skb rest).1
  | .txPending => txPending cfg e.2 w
  | .txqStop txq bit => {w with txqStop := update w.txqStop txq bit}

def idle : World where
  queueStopReasons := fun _ _ => false
  qStopReasons := fun _ _ => 0
  pending := fun _ => []
  subqueue := fun _ _ => false
  txqs := fun _ => []
  txqStop := fun _ => false
  txqsLen := fun _ _ => 0
  tasklet := false
  handed := []
  passed := []
  freed := []
  calls := 0
  quiet := true

def run (cfg : Config) (events : List (Event × Env)) : World := events.foldl (step cfg) idle

end Mac80211.Queues

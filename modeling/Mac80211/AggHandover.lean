import Mac80211.AggTx

namespace Mac80211.AggHandover
open AggTx (State StopReason)

def staMaxTxBuffer : Nat := 64

-- What is read of a QoS data frame of the TID. id is which of the frames it is.
structure Skb where
  id : Nat
  ampdu : Bool
  needTxprocessing : Bool
  retransmission : Bool
  retried : Bool
  seqCtrl : UInt16
deriving DecidableEq

-- A tid_ampdu_tx, with the frames that are held back.
structure Session where
  state : State
  dialogToken : UInt8
  pending : List Skb

-- Where a CPU has come to with a frame. A session is the record that was loaded, or from the handlers on
-- the one the frame was flagged in.
inductive Point where
  | prepare
  | operational (s : Nat)
  | wantStart (s : Nat)
  | recheck
  | handlers (flagged : Option Nat)
  | nextSeq (flagged : Option Nat)
  | encrypt
  | frags

structure Path where
  id : Nat
  skb : Skb
  txpending : Bool
  point : Point

inductive Handover where
  | refused (s : Nat)
  | operational (s : Nat)
  | removed (s : Nat)

def Handover.session : Handover → Nat
  | .refused s => s
  | .operational s => s
  | .removed s => s

-- Where the holder of ampdu_mlme.mtx has come to, with sta->lock from move to wake. before: synchronize_net
-- waits for the paths that are older.
inductive Section where
  | work
  | wantStop
  | clearWantStart (s : Nat)
  | startSync (s before : Nat)
  | startSeq (s : Nat)
  | startDrv (s : Nat) (startSeqNum : UInt16)
  | addbaRequest (s : Nat) (startSeqNum : UInt16)
  | stop (reason : StopReason)
  | stopClear (s : Nat)
  | stopSync (s before : Nat)
  | stopDrv (s : Nat)
  | startCb
  | startCbReady (s : Nat)
  | addbaResp (dialogToken : UInt8) (success : Bool)
  | addbaStatus (s : Nat) (success : Bool)
  | addbaReady (s : Nat)
  | drvOperational (s : Nat)
  | stopCb
  | splice (h : Handover)
  | move (h : Handover)
  | assign (h : Handover)
  | wake (h : Handover)

def Section.locked : Section → Bool
  | .move _ => true
  | .assign _ => true
  | .wake _ => true
  | _ => false

-- numbered: a frame that was flagged in the session has its sequence number.
inductive Act where
  | held (s : Nat) (skb : Skb)
  | purged (s : Nat) (skb : Skb)
  | moved (s : Nat) (skbs : List Skb)
  | freed (s : Nat)
  | addbaRequest (s : Nat) (dialogToken : UInt8) (startSeqNum : UInt16)
  | flagged (s : Nat) (skb : Skb)
  | numbered (s : Nat) (skb : Skb)
deriving DecidableEq

-- One TID of a station without driver queues. sessions has every record allocated; pending is the TID's
-- part of local->pending, driver what the driver was given. others counts the other sessions handing over
-- to the same queue.
structure World where
  sessions : Nat → Session
  allocated : Nat
  dialogTokenAllocator : UInt8
  tidTx : Option Nat
  tidStartTx : Option Nat
  tidSeq : UInt16
  mtx : Option Section
  paths : List Path
  begun : Nat
  pending : List Skb
  psTxBuf : List Skb
  txFiltered : List Skb
  driver : List Skb
  tasklet : Bool
  aggQueueStop : Int
  others : Nat
  aggregationStop : Bool
  otherStop : Bool
  trace : List Act

def World.goTo (w : World) (s : Section) : World := {w with mtx := some s}
def World.unlock (w : World) : World := {w with mtx := none}
def World.act (w : World) (acts : List Act) : World := {w with trace := w.trace ++ acts}
def World.locked (w : World) : Bool := w.mtx.any Section.locked

def World.setSession (w : World) (s : Nat) (session : Session) : World :=
  {w with sessions := fun t => if t = s then session else w.sessions t}

def World.setState (w : World) (s : Nat) (state : State) : World := w.setSession s {w.sessions s with state := state}

def newState : State := ⟨false,false,false,false,true,false⟩

-- The part of ieee80211_start_tx_ba_session under sta->lock. willing: none of the
-- checks before refuses.
def World.startTxBaSession (w : World) (willing alloc : Bool) : World :=
  if !willing || w.tidTx.isSome || w.tidStartTx.isSome || !alloc then w
  else
    let token := w.dialogTokenAllocator + 1
    let w := w.setSession w.allocated ⟨newState,token,[]⟩
    {w with dialogTokenAllocator := token,tidStartTx := some w.allocated,allocated := w.allocated + 1}

def World.stopTxBaSession (w : World) : World :=
  match w.tidTx with
  | none => w
  | some s =>
    let state := (w.sessions s).state
    if state.stopping then w else w.setState s {state with wantStop := true}

def World.stopQueueAgg (w : World) : World :=
  {w with aggQueueStop := w.aggQueueStop + 1,aggregationStop := w.aggregationStop || decide (w.aggQueueStop + 1 = 1)}

def World.wakeQueueAgg (w : World) : World :=
  {w with aggQueueStop := w.aggQueueStop - 1,aggregationStop := w.aggregationStop && decide (w.aggQueueStop - 1 ≠ 0)}

def World.baSessionWork (w : World) : World :=
  match w.tidStartTx,w.tidTx with
  | none,_ => w.goTo .wantStop
  | some start,none => ({w with tidStartTx := none,tidTx := some start} : World).goTo (.clearWantStart start)
  | some start,some s => (({w with tidStartTx := none} : World).act [.freed start]).goTo (.clearWantStart s)

def World.wantStop (w : World) : World :=
  match w.tidTx with
  | none => w.unlock
  | some s =>
    let state := (w.sessions s).state
    if state.wantStop then (w.setState s {state with wantStop := false}).goTo (.stop .localRequest) else w.unlock

def World.stop (w : World) : World :=
  match w.tidTx with
  | none => w.unlock
  | some s =>
    let state := (w.sessions s).state
    if state.stopping then w.unlock
    else if state.wantStart then (({w with tidTx := none} : World).act [.freed s]).unlock
    else (w.setState s {state with stopping := true}).goTo (.stopClear s)

def World.startTxBaCb (w : World) : World :=
  match w.tidTx with
  | none => w.unlock
  | some s =>
    let state := (w.sessions s).state
    if state.drvReady then w.unlock else (w.setState s {state with drvReady := true}).goTo (.startCbReady s)

def World.addbaResp (w : World) (dialogToken : UInt8) (success : Bool) : World :=
  match w.tidTx with
  | none => w.unlock
  | some s => if dialogToken != (w.sessions s).dialogToken then w.unlock else w.goTo (.addbaStatus s success)

def World.addbaStatus (w : World) (s : Nat) (success : Bool) : World :=
  let state := (w.sessions s).state
  if state.wantStop || state.stopping then w.unlock
  else if !success then w.goTo (.stop .declined)
  else if state.responseReceived then w.unlock
  else (w.setState s {state with responseReceived := true}).goTo (.addbaReady s)

def World.stopTxBaCb (w : World) : World :=
  match w.tidTx with
  | none => w.unlock
  | some s => if !(w.sessions s).state.stopping then w.unlock else w.stopQueueAgg.goTo (.move (.removed s))

def World.moveFrames (w : World) (s : Nat) : World :=
  let session := w.sessions s
  ({w.setSession s {session with pending := []} with pending := w.pending ++ session.pending} : World).act
    [.moved s session.pending]

def World.assign (w : World) : Handover → World
  | .operational s => w.setState s {(w.sessions s).state with operational := true}
  | _ => {w with tidTx := none}

-- ieee80211_agg_splice_finish, after which the record of a session that is over is
-- freed.
def World.finish (w : World) : Handover → World
  | .operational _ => w.wakeQueueAgg
  | .refused s => w.wakeQueueAgg.act [.freed s]
  | .removed s => w.wakeQueueAgg.act [.freed s]

def World.synchronized (w : World) (before : Nat) : Bool := w.paths.all fun p => decide (before ≤ p.id)

def World.goOn (w : World) (good : Bool) : Section → Option World
  | .work => some w.baSessionWork
  | .wantStop => some w.wantStop
  | .clearWantStart s =>
    some ((w.setState s {(w.sessions s).state with wantStart := false}).goTo (.startSync s w.begun))
  | .startSync s before => if w.synchronized before then some (w.goTo (.startSeq s)) else none
  | .startSeq s => some (w.goTo (.startDrv s (w.tidSeq >>> 4)))
  | .startDrv s startSeqNum => some (if good then w.goTo (.addbaRequest s startSeqNum) else w.goTo (.splice (.refused s)))
  | .addbaRequest s startSeqNum =>
    some ((if good then w.act [.addbaRequest s (w.sessions s).dialogToken startSeqNum] else w).unlock)
  | .stop _ => some w.stop
  | .stopClear s =>
    some ((w.setState s {(w.sessions s).state with operational := false}).goTo (.stopSync s w.begun))
  | .stopSync s before => if w.synchronized before then some (w.goTo (.stopDrv s)) else none
  | .stopDrv _ => some w.unlock
  | .startCb => some w.startTxBaCb
  | .startCbReady s => some (if (w.sessions s).state.responseReceived then w.goTo (.drvOperational s) else w.unlock)
  | .addbaResp dialogToken success => some (w.addbaResp dialogToken success)
  | .addbaStatus s success => some (w.addbaStatus s success)
  | .addbaReady s => some (if (w.sessions s).state.drvReady then w.goTo (.drvOperational s) else w.unlock)
  | .drvOperational s => some (w.goTo (.splice (.operational s)))
  | .stopCb => some w.stopTxBaCb
  | .splice h => some (w.stopQueueAgg.goTo (.move h))
  | .move h => some ((w.moveFrames h.session).goTo (.assign h))
  | .assign h => some ((w.assign h).goTo (.wake h))
  | .wake h => some (w.finish h).unlock

inductive Fate where
  | passed
  | dropped
  | buffered
deriving DecidableEq

def World.leave (w : World) (k : Nat) : World := {w with paths := w.paths.eraseIdx k}
def World.put (w : World) (k : Nat) (p : Path) : World := {w with paths := w.paths.set k p}
def Path.at (p : Path) (point : Point) : Path := {p with point := point}

def World.flag (w : World) (k : Nat) (p : Path) (s : Nat) : World :=
  (w.put k {p with
    skb := {p.skb with ampdu := true},
    point := .handlers (some s)}).act [.flagged s {p.skb with ampdu := true}]

def Skb.queued (skb : Skb) : Skb := {skb with needTxprocessing := true,ampdu := false}

-- __skb_queue_tail to tid_tx->pending, and the oldest frame that is freed where it is
-- too long.
def World.hold (w : World) (s : Nat) (skb : Skb) : World :=
  let session := w.sessions s
  let w := w.act [.held s skb]
  match session.pending ++ [skb] with
  | [] => w
  | oldest :: rest =>
    if (oldest :: rest).length > staMaxTxBuffer then
      (w.setSession s {session with pending := rest}).act [.purged s oldest]
    else w.setSession s {session with pending := oldest :: rest}

def World.recheck (w : World) (k : Nat) (p : Path) : World :=
  match w.tidTx with
  | none => w.put k (p.at (.handlers none))
  | some s => if (w.sessions s).state.operational then w.flag k p s else (w.leave k).hold s p.skb.queued

def World.psBuffer (w : World) (skb : Skb) : World :=
  {w with psTxBuf := (if w.psTxBuf.length ≥ staMaxTxBuffer then w.psTxBuf.tail else w.psTxBuf) ++ [skb.queued]}

-- ieee80211_tx_next_seq reads the counter here and writes it in the next step.
def World.sequence (w : World) (k : Nat) (p : Path) (flagged : Option Nat) : World :=
  let skb := if p.skb.retransmission then p.skb else {p.skb with seqCtrl := w.tidSeq}
  let point := if p.skb.retransmission then Point.frags else .nextSeq flagged
  (w.put k {p with skb := skb,point := point}).act (flagged.toList.map fun s => .numbered s skb)

def World.stopped (w : World) : Bool := w.aggregationStop || w.otherStop

def World.txFrags (w : World) (k : Nat) (p : Path) : World :=
  if w.stopped || !p.txpending && !w.pending.isEmpty then
    if p.txpending then {w.leave k with pending := p.skb :: w.pending,tasklet := false}
    else {w.leave k with pending := w.pending ++ [p.skb]}
  else {w.leave k with driver := w.driver ++ [p.skb]}

-- A path goes on, none: it waits for sta->lock.
def World.path (w : World) (k : Nat) (fate : Fate) (p : Path) : Option World :=
  match p.point with
  | .prepare =>
    let skb := {p.skb with needTxprocessing := false}
    some (w.put k {p with
      skb := skb,
      point := match w.tidTx with
        | none => .handlers none
        | some s => .operational s})
  | .operational s => some (if (w.sessions s).state.operational then w.flag k p s else w.put k (p.at (.wantStart s)))
  | .wantStart s => some (w.put k (p.at (if (w.sessions s).state.wantStart then .handlers none else .recheck)))
  | .recheck => if w.locked then none else some (w.recheck k p)
  | .handlers flagged =>
    match fate with
    | .passed => some (w.sequence k p flagged)
    | .dropped => some (w.leave k)
    | .buffered => some ((w.leave k).psBuffer p.skb)
  | .nextSeq _ => some ({w with tidSeq := (p.skb.seqCtrl + 0x10) &&& 0xfff0} |>.put k (p.at .encrypt))
  | .encrypt => some (if fate = .dropped then w.leave k else w.put k (p.at .frags))
  | .frags => some (w.txFrags k p)

def World.begin (w : World) (skb : Skb) (txpending : Bool) (point : Point) : World :=
  {w with paths := w.paths ++ [⟨w.begun,skb,txpending,point⟩],begun := w.begun + 1}

def World.xmit (w : World) : World := w.begin ⟨w.begun,false,false,false,false,0⟩ false .prepare

def World.txPending (w : World) : Option World :=
  if !w.tasklet || w.paths.any Path.txpending then none
  else
    match w.pending with
    | [] => some {w with tasklet := false}
    | skb :: rest => some (({w with pending := rest} : World).begin skb true (if skb.needTxprocessing then .prepare else .frags))

-- asleep: WLAN_STA_PS_STA is set.
def World.handleFiltered (w : World) (skb : Skb) (asleep : Bool) : World :=
  let filtered := {skb with needTxprocessing := true,retransmission := true,ampdu := false}
  if asleep && decide (w.txFiltered.length < staMaxTxBuffer) then {w with txFiltered := w.txFiltered ++ [filtered]}
  else if !asleep && !skb.retried then {w with pending := w.pending ++ [{filtered with retried := true}]}
  else w

def World.deliverWakeup (w : World) : World :=
  {w with pending := w.pending ++ (w.txFiltered ++ w.psTxBuf),txFiltered := [],psTxBuf := []}

def World.deliverResponse (w : World) : World :=
  match w.txFiltered,w.psTxBuf with
  | skb :: rest,_ => {w with txFiltered := rest,pending := w.pending ++ [skb]}
  | [],skb :: rest => {w with psTxBuf := rest,pending := w.pending ++ [skb]}
  | [],[] => w

-- filtered: the driver gives frame k back.
inductive Event where
  | startTxBaSession (willing alloc : Bool)
  | stopTxBaSession
  | work
  | stop (reason : StopReason)
  | startCb
  | stopCb
  | addbaResp (dialogToken : UInt8) (success : Bool)
  | goOn (good : Bool)
  | xmit
  | path (k : Nat) (fate : Fate)
  | tasklet
  | txPending
  | filtered (k : Nat) (asleep : Bool)
  | deliverWakeup
  | deliverResponse
  | stopQueue (stopped : Bool)
  | otherSplices
  | otherFinishes

def World.enter (w : World) (s : Section) : Option World := if w.mtx.isSome then none else some (w.goTo s)

def step : Event → World → Option World
  | .startTxBaSession willing alloc,w => if w.locked then none else some (w.startTxBaSession willing alloc)
  | .stopTxBaSession,w => if w.locked then none else some w.stopTxBaSession
  | .work,w => w.enter .work
  | .stop reason,w => w.enter (.stop reason)
  | .startCb,w => w.enter .startCb
  | .stopCb,w => w.enter .stopCb
  | .addbaResp dialogToken success,w => w.enter (.addbaResp dialogToken success)
  | .goOn good,w => w.mtx.bind (w.goOn good)
  | .xmit,w => some w.xmit
  | .path k fate,w => (w.paths[k]?).bind (w.path k fate)
  | .tasklet,w => if w.stopped then none else some {w with tasklet := true}
  | .txPending,w => w.txPending
  | .filtered k asleep,w =>
    (w.driver[k]?).map fun skb => ({w with driver := w.driver.eraseIdx k} : World).handleFiltered skb asleep
  | .deliverWakeup,w => some w.deliverWakeup
  | .deliverResponse,w => some w.deliverResponse
  | .stopQueue stopped,w => some {w with otherStop := stopped}
  | .otherSplices,w => some {w.stopQueueAgg with others := w.others + 1}
  | .otherFinishes,w => if w.others = 0 then none else some {w.wakeQueueAgg with others := w.others - 1}

inductive Run (fine : World → Event → Prop) (start : World) : World → Prop
  | refl : Run fine start start
  | step (prior : Run fine start w) (meets : fine w e) (ran : step e w = some w') : Run fine start w'

abbrev Reach : World → World → Prop := Run fun _ _ => True

def runs (fine : World → Event → Bool) (events : List Event) (w : World) : Option World :=
  events.foldlM (fun w e => if fine w e then step e w else none) w

theorem runs_run (events : List Event)
    (prior : Run (fun w e => fine w e = true) start before) (ran : runs fine events before = some w) : Run (fun w e => fine w e = true) start w := by
  induction events generalizing before with
  | nil =>
    cases ran
    exact prior
  | cons e rest ih =>
    obtain ⟨_,stepped,ran⟩ := Option.bind_eq_some_iff.mp ran
    obtain ⟨meets,stepped⟩ := Option.ite_none_right_eq_some.mp stepped
    exact ih (.step prior meets stepped) ran

theorem run_reach (run : Run fine start w) : Reach start w := by
  induction run with
  | refl => exact .refl
  | step _ _ ran ih => exact .step ih trivial ran

structure World.Initial (w : World) : Prop where
  tidTx : w.tidTx = none
  tidStartTx : w.tidStartTx = none
  mtx : w.mtx = none
  paths : w.paths = []
  pending : ∀ s, (w.sessions s).pending = []
  operational : ∀ s, (w.sessions s).state.operational = false
  aggQueueStop : w.aggQueueStop = w.others
  trace : w.trace = []

end Mac80211.AggHandover

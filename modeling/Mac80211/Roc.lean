import Mathlib.Algebra.Ring.Nat
import Mathlib.Tactic.Common

namespace Mac80211.Roc

-- Of struct ieee80211_roc_work; a frame is a pointer.
structure Request where
  id : Nat
  mgmtTxCookie : Nat
  frame : Option Nat
  notified : Bool

structure RocWork extends Request where
  sdata : Nat
  chan : Nat
  type : Nat
  duration : Nat
  reqDuration : Nat
  cookie : Nat

-- Not pending, waiting for its timer, or for a worker.
inductive Work where
  | idle | timer | queued
deriving DecidableEq

-- Nothing is put in the dependents of a dependent.
structure Entry where
  roc : RocWork
  dependents : List RocWork
  started : Bool
  hwBegun : Bool
  hwStartTime : Nat
  abort : Bool
  work : Work

def fresh (roc : RocWork) : Entry := ⟨roc,[],false,false,0,false,.idle⟩

-- It is ready, its frame is transmitted, its frame is given up, it is expired, its memory is freed.
inductive Report where
  | ready (id : Nat)
  | sent (id : Nat)
  | failed (id : Nat)
  | expired (id : Nat)
  | freed (id : Nat)
deriving DecidableEq

-- Who waits for a work item to be flushed, with the RTNL.
inductive Caller where
  | none
  | cancelling (id : Nat)
  | purging (id : Option Nat)
deriving DecidableEq

structure Config where
  remainOnChannel : Bool
  useChanctx : Bool
  rocMinLeft : Nat
  msecsToJiffies : Nat → Nat
  jiffiesToMsecs : Nat → Nat

-- toBeFreed: left to a caller to free. asked: the frame of each accepted request, or 0. hwRocStart and
-- hwRocDone are pending work items.
structure World where
  rocList : List Entry
  tmpList : List Entry
  toBeFreed : List Nat
  caller : Caller
  hwRocStart : Bool
  hwRocDone : Bool
  hwRocStartTime : Nat
  rocCookieCounter : Nat
  asked : List Nat
  reports : List Report

def World.report (w : World) (reports : List Report) : World := {w with reports := w.reports ++ reports}

def Request.handleStarted (r : Request) : Request × List Report :=
  if r.notified then (r,[])
  else if r.mgmtTxCookie ≠ 0 then
    match r.frame with
    | none => ({r with notified := true},[])
    | some _ => ({r with frame := none,notified := true},[.sent r.id])
  else ({r with notified := true},[.ready r.id])

def RocWork.handleStarted (r : RocWork) : RocWork := {r with toRequest := r.toRequest.handleStarted.1}
def RocWork.startReports (r : RocWork) : List Report := r.toRequest.handleStarted.2

def Request.destroyReports (r : Request) : List Report :=
  (if r.frame.isSome then [.failed r.id] else []) ++ if r.mgmtTxCookie = 0 then [.expired r.id] else []

def notifyDestroy (e : Entry) (free : Bool) : List Report :=
  e.roc.destroyReports ++ e.dependents.flatMap (fun dep => dep.destroyReports ++ [Report.freed dep.id]) ++
    if free then [.freed e.roc.id] else []

section roc
variable (cfg : Config)

def Entry.extend (e : Entry) (roc : RocWork) : Entry :=
  {e with
    roc := {e.roc with duration := max e.roc.duration roc.duration,type := max e.roc.type roc.type},
    dependents := e.dependents ++ [roc]}

-- For an entry and what follows it; j is jiffies.
def coalesceStartedRoc (j : Nat) (new : RocWork) (cur : Entry) (after : List Entry) : Option (List Entry × List Report) :=
  let curRocEnd := cur.hwStartTime + cfg.msecsToJiffies cur.roc.duration
  if !cur.started || !cur.hwBegun then none
  else if j + cfg.rocMinLeft > curRocEnd then none
  else
    let reports := new.startReports
    let new := new.handleStarted
    let newDur : Int := new.duration - cfg.jiffiesToMsecs (curRocEnd - j)
    if newDur ≤ 0 then some ({cur with dependents := cur.dependents ++ [new]} :: after,reports)
    else
      let new := {new with duration := newDur.toNat}
      match after with
      | [] => some ([cur,fresh new],reports)
      | next :: rest =>
        if next.roc.chan = new.chan ∧ next.roc.sdata = new.sdata ∧ next.started = false then
          some (cur :: next.extend new :: rest,reports)
        else some (cur :: fresh new :: next :: rest,reports)

-- Only the first entry for the channel counts.
def checkCombine (j : Nat) (roc : RocWork) : List Entry → Option (List Entry × List Report)
  | [] => none
  | tmp :: rest =>
    if tmp.roc.chan ≠ roc.chan ∨ tmp.roc.sdata ≠ roc.sdata then
      (checkCombine j roc rest).map fun out => (tmp :: out.1,out.2)
    else if !tmp.started then some (tmp.extend roc :: rest,[])
    else if cfg.remainOnChannel then
      if !tmp.hwBegun then some ({tmp with dependents := tmp.dependents ++ [roc]} :: rest,[])
      else coalesceStartedRoc cfg j roc tmp rest
    else if tmp.work = .timer then some ({tmp with dependents := tmp.dependents ++ [roc.handleStarted]} :: rest,roc.startReports)
    else none

def nextCookie (counter : Nat) : Nat := if (counter + 1) % 2 ^ 64 = 0 then 1 else (counter + 1) % 2 ^ 64

def startRocWork (w : World) (sdata chan duration txskb type : Nat) (busy : Bool) (j : Nat) (accept : Bool) : World :=
  if cfg.useChanctx && !cfg.remainOnChannel then w
  else
    let duration := if duration = 0 then 10 else duration
    let cookie := nextCookie w.rocCookieCounter
    let roc : RocWork :=
      ⟨⟨w.asked.length,txskb,if txskb = 0 then none else some txskb,false⟩,sdata,chan,type,duration,duration,if txskb = 0 then cookie else 0⟩
    let w := if txskb = 0 then {w with rocCookieCounter := cookie} else w
    if !w.rocList.isEmpty || busy then
      match checkCombine cfg j roc w.rocList with
      | some (list,reports) => {w with rocList := list,asked := w.asked ++ [txskb]}.report reports
      | none => {w with rocList := w.rocList ++ [fresh roc],asked := w.asked ++ [txskb]}
    else if !cfg.remainOnChannel then
      {w with rocList := w.rocList ++ [{fresh roc with work := .queued}],asked := w.asked ++ [txskb]}
    else if !accept then w
    else {w with rocList := w.rocList ++ [{fresh roc with started := true}],asked := w.asked ++ [txskb]}

-- A failure is an expiry that comes at once.
def startNextRoc (w : World) (accept : Bool) : World :=
  match w.rocList with
  | [] => w
  | roc :: rest =>
    if roc.started then w
    else if cfg.remainOnChannel then {w with rocList := {roc with started := true} :: rest,hwRocDone := w.hwRocDone || !accept}
    else {w with rocList := {roc with work := if roc.work = .idle then .timer else roc.work} :: rest}

inductive Found where
  | dependent (list : List Entry) (dep : RocWork)
  | entry (before : List Entry) (found : Entry) (after : List Entry)

def Found.cons (e : Entry) : Found → Found
  | .dependent list dep => .dependent (e :: list) dep
  | .entry before found after => .entry (e :: before) found after

def find (p : RocWork → Bool) : List Entry → Option Found
  | [] => none
  | roc :: rest =>
    match roc.dependents.find? p with
    | some dep => some (.dependent ({roc with dependents := roc.dependents.eraseP p} :: rest) dep)
    | none => if p roc.roc then some (.entry [] roc rest) else (find p rest).map (Found.cons roc)

-- Up to the flush. drvOk and accept are answers of the driver.
def cancelRoc (w : World) (cookie : Nat) (mgmtTx drvOk accept : Bool) : World :=
  match find (fun roc => (if mgmtTx then roc.mgmtTxCookie else roc.cookie) == cookie) w.rocList with
  | none => w
  | some (.dependent list dep) => {w with rocList := list}.report (dep.destroyReports ++ [Report.freed dep.id])
  | some (.entry before found after) =>
    if cfg.remainOnChannel then
      if found.started && !drvOk then w
      else
        let w := {w with rocList := before ++ after}
        let w := if found.started then startNextRoc cfg w accept else w
        w.report (notifyDestroy found true)
    else
      {w with rocList := before ++ {found with abort := true,work := .queued} :: after,caller := .cancelling found.roc.id}

def finish (w : World) (roc : Entry) : World :=
  let w := w.report (notifyDestroy roc (!roc.abort))
  let w := if roc.abort then {w with toBeFreed := w.toBeFreed ++ [roc.roc.id]} else w
  if roc.started then startNextRoc cfg w true else w

def Entry.handleStarted (e : Entry) : Entry :=
  {e with roc := e.roc.handleStarted,dependents := e.dependents.map RocWork.handleStarted}

def Entry.startReports (e : Entry) : List Report := e.roc.startReports ++ e.dependents.flatMap RocWork.startReports

def take (id : Nat) : List Entry → Option (List Entry × Entry × List Entry)
  | [] => none
  | roc :: rest =>
    if roc.roc.id = id ∧ roc.work = .queued then some ([],{roc with work := .idle},rest)
    else (take id rest).map fun out => (roc :: out.1,out.2.1,out.2.2)

def swRocWork (w : World) (id : Nat) : World :=
  match take id w.rocList with
  | some (before,roc,after) =>
    if roc.abort then finish cfg {w with rocList := before ++ after} roc
    else if !before.isEmpty then {w with rocList := before ++ roc :: after}
    else if !roc.started then
      let w := w.report roc.startReports
      let roc := roc.handleStarted
      if roc.roc.duration = 0 then finish cfg {w with rocList := after} roc
      else {w with rocList := {roc with started := true,work := .timer} :: after}
    else finish cfg {w with rocList := after} roc
  | none =>
    match take id w.tmpList with
    | some (before,roc,after) => finish cfg {w with tmpList := before ++ after} roc
    | none => w

-- The loop of ieee80211_hw_roc_start: the duration, the dependents that stay and those put behind the
-- entry, the last first.
def beginDependents : List RocWork → Nat → List RocWork → List RocWork → Nat × List RocWork × List RocWork
  | [],duration,stay,moved => (duration,stay,moved)
  | dep :: rest,duration,stay,moved =>
    let dep := dep.handleStarted
    if dep.duration > duration then
      beginDependents rest dep.duration stay ({dep with duration := dep.duration - duration} :: moved)
    else beginDependents rest duration (stay ++ [dep]) moved

def hwRocStartWork (w : World) : World :=
  if !w.hwRocStart then w
  else
    let w := {w with hwRocStart := false}
    match w.rocList with
    | [] => w
    | roc :: rest =>
      if !roc.started then w
      else
        let (duration,stay,moved) := beginDependents roc.dependents roc.roc.duration [] []
        let begun := {roc with
          hwBegun := true,
          hwStartTime := w.hwRocStartTime,
          roc := {roc.roc.handleStarted with duration := duration},
          dependents := stay}
        {w with rocList := begun :: moved.map fresh ++ rest}.report roc.startReports

def hwRocDoneWork (w : World) (accept : Bool) : World :=
  if !w.hwRocDone then w
  else
    let w := {w with hwRocDone := false}
    match w.rocList with
    | [] => w
    | roc :: rest =>
      if !roc.started then w
      else startNextRoc cfg ({w with rocList := rest}.report (notifyDestroy roc true)) accept

def rocPurge (w : World) (sdata : Option Nat) : World :=
  let taken := w.rocList.filter fun roc => sdata.all (· == roc.roc.sdata)
  let w := {w with rocList := w.rocList.filter fun roc => !sdata.all (· == roc.roc.sdata)}
  if cfg.remainOnChannel then w.report (taken.flatMap fun roc => notifyDestroy roc true)
  else {w with tmpList := taken.map fun roc => {roc with abort := true},caller := .purging none}

-- The work of the entry is queued and flushed; none behind it has work pending.
def purgeNext (w : World) : World :=
  match w.tmpList with
  | [] => {w with caller := .none}
  | roc :: rest => {w with tmpList := {roc with work := .queued} :: rest,caller := .purging (some roc.roc.id)}

def World.pending (w : World) (id : Nat) : Bool := (w.rocList ++ w.tmpList).any fun roc => roc.roc.id == id && roc.work != .idle

def flushed (w : World) : World :=
  match w.caller with
  | .none => w
  | .cancelling id =>
    if w.pending id then w else {w with toBeFreed := w.toBeFreed.erase id,caller := .none}.report [.freed id]
  | .purging none => purgeNext w
  | .purging (some id) =>
    if w.pending id then w else {w with toBeFreed := w.toBeFreed.erase id,caller := .purging none}.report [.freed id]

def fire (w : World) (id : Nat) : World :=
  let queue := fun roc : Entry => if roc.roc.id = id ∧ roc.work = .timer then {roc with work := .queued} else roc
  {w with rocList := w.rocList.map queue,tmpList := w.tmpList.map queue}

-- No request, cancellation or purge comes while a caller waits. startNext is the end of a scan.
inductive Event where
  | request (sdata chan duration txskb type : Nat) (busy : Bool) (j : Nat) (accept : Bool)
  | cancel (cookie : Nat) (mgmtTx drvOk accept : Bool)
  | purge (sdata : Option Nat)
  | flushed
  | fire (id : Nat)
  | swWork (id : Nat)
  | ready (j : Nat)
  | expired
  | hwStart
  | hwDone (accept : Bool)
  | startNext (accept : Bool)

def step (w : World) (e : Event) : World :=
  match e with
  | .request sdata chan duration txskb type busy j accept =>
    if w.caller = .none then startRocWork cfg w sdata chan duration txskb type busy j accept else w
  | .cancel cookie mgmtTx drvOk accept => if w.caller = .none then cancelRoc cfg w cookie mgmtTx drvOk accept else w
  | .purge sdata => if w.caller = .none then rocPurge cfg w sdata else w
  | .flushed => flushed w
  | .fire id => fire w id
  | .swWork id => swRocWork cfg w id
  | .ready j => if cfg.remainOnChannel then {w with hwRocStart := true,hwRocStartTime := j} else w
  | .expired => if cfg.remainOnChannel then {w with hwRocDone := true} else w
  | .hwStart => hwRocStartWork w
  | .hwDone accept => hwRocDoneWork cfg w accept
  | .startNext accept => startNextRoc cfg w accept

def run (w : World) (events : List Event) : World := events.foldl (step cfg) w

def start : World := ⟨[],[],[],.none,false,false,0,0,[],[]⟩

end roc

end Mac80211.Roc

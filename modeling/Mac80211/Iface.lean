import Mathlib.Tactic.Common

namespace Mac80211.Iface

inductive IfType where
  | adhoc | station | ap | apVlan | wds | monitor | meshPoint | p2pDevice | ocb
deriving DecidableEq

structure MonitorFlags where
  fcsFail : Bool
  plcpFail : Bool
  control : Bool
  otherBss : Bool
  cookFrames : Bool
  active : Bool

-- bss: the access point whose u.ap it points to.
structure Sdata where
  type : IfType
  addr : Nat
  running : Bool
  bss : Option Nat
  mntrFlags : MonitorFlags
  vlans : List Nat

-- The counters of struct ieee80211_local; all are int.
inductive Counter where
  | openCount | monitors | cookedMntrs
  | fifFcsfail | fifPlcpfail | fifControl | fifOtherBss | fifPspoll | fifProbeReq
deriving DecidableEq

-- monitorSdata says whether there is a virtual monitor interface.
structure World where
  sdata : Nat → Sdata
  counts : Counter → Int
  monitorSdata : Bool

inductive Errno where
  | noLink | busy | notUniq | addrNotAvail | noMem | inval
  | driver (err : Nat)
deriving DecidableEq

structure Answers where
  validAddr : Bool
  csaActive : Nat → Bool
  combinations : Option Errno
  remoteAddr : Bool
  start : Option Errno
  permAddr : Bool
  addInterface : Option Errno
  checkQueues : Option Errno
  virtualMonitor : Option Errno
  sta : Option Errno

def World.setSdata (w : World) (i : Nat) (f : Sdata → Sdata) : World := {w with sdata := Function.update w.sdata i (f (w.sdata i))}

def World.adjust (w : World) (c : Counter) (offset : Int) : World :=
  {w with counts := fun other => w.counts other + if other = c then offset else 0}

section iface
variable (wantMonitorVif : Bool)

def adjustMonitorFlags (w : World) (flags : MonitorFlags) (offset : Int) : World :=
  let w := if flags.fcsFail then w.adjust .fifFcsfail offset else w
  let w := if flags.plcpFail then w.adjust .fifPlcpfail offset else w
  let w := if flags.control then w.adjust .fifControl offset else w
  let w := if flags.control then w.adjust .fifPspoll offset else w
  if flags.otherBss then w.adjust .fifOtherBss offset else w

def addVirtualMonitor (w : World) (answer : Option Errno) : World × Option Errno :=
  if !wantMonitorVif || w.monitorSdata then (w,none)
  else
    match answer with
    | some err => (w,some err)
    | none => ({w with monitorSdata := true},none)

def delVirtualMonitor (w : World) : World := if wantMonitorVif then {w with monitorSdata := false} else w

def identicalMacAddrAllowed (type1 type2 : IfType) : Bool :=
  type1 == .monitor || type2 == .monitor || type1 == .p2pDevice || type2 == .p2pDevice ||
    (type1 == .ap && type2 == .wds) || (type1 == .wds && (type2 == .wds || type2 == .ap)) ||
    (type1 == .ap && type2 == .apVlan) || (type1 == .apVlan && (type2 == .ap || type2 == .apVlan))

def checkConcurrentIface (w : World) (i : Nat) (csaActive : Nat → Bool) : List Nat → Option Nat → Option Nat × Option Errno
  | [],bss => (bss,none)
  | n :: rest,bss =>
    let sdata := w.sdata i
    let nsdata := w.sdata n
    if n = i ∨ nsdata.running = false then checkConcurrentIface w i csaActive rest bss
    else if (sdata.type = .ocb ∧ nsdata.type ≠ .monitor) ∨ (sdata.type ≠ .monitor ∧ nsdata.type = .ocb) then (bss,some .busy)
    else if sdata.type = .adhoc ∧ nsdata.type = .adhoc then (bss,some .busy)
    else if csaActive n then (bss,some .busy)
    else if sdata.addr ≠ nsdata.addr then checkConcurrentIface w i csaActive rest bss
    else if !identicalMacAddrAllowed sdata.type nsdata.type then (bss,some .notUniq)
    else checkConcurrentIface w i csaActive rest (if sdata.type = .apVlan ∧ nsdata.type = .ap then some n else bss)

def link (w : World) (i : Nat) (answers : Answers) : Except Errno World :=
  match (w.sdata i).type with
  | .wds => if answers.remoteAddr then .ok w else .error .noLink
  | .apVlan =>
    match (w.sdata i).bss with
    | none => .error .noLink
    | some b => .ok (w.setSdata b fun ap => {ap with vlans := i :: ap.vlans})
  | .ap => .ok (w.setSdata i fun sdata => {sdata with bss := some i})
  | _ => .ok w

def attach (w : World) (i : Nat) (answers : Answers) : World × Option Errno :=
  let flags := (w.sdata i).mntrFlags
  match (w.sdata i).type with
  | .apVlan => (w,none)
  | .monitor =>
    if flags.cookFrames then (w.adjust .cookedMntrs 1,none)
    else
      let (w,err) :=
        if flags.active then (w,answers.addInterface)
        else if w.counts .monitors = 0 ∧ w.counts .openCount = 0 then addVirtualMonitor wantMonitorVif w answers.virtualMonitor
        else (w,none)
      match err with
      | some err => (w,some err)
      | none => (adjustMonitorFlags (w.adjust .monitors 1) flags 1,none)
  | type =>
    let w := delVirtualMonitor wantMonitorVif w
    match answers.addInterface.or answers.checkQueues with
    | some err => (w,some err)
    | none =>
      if type = .ap then ((w.adjust .fifPspoll 1).adjust .fifProbeReq 1,none)
      else if type = .adhoc then (w.adjust .fifProbeReq 1,none)
      else (w,none)

def unlinkVlan (w : World) (i : Nat) : World :=
  match (w.sdata i).type,(w.sdata i).bss with
  | .apVlan,some b => w.setSdata b fun ap => {ap with vlans := ap.vlans.erase i}
  | _,_ => w

def delBss (w : World) (i : Nat) : World := (unlinkVlan w i).setSdata i fun sdata => {sdata with bss := none,running := false}

def doOpen (w : World) (i : Nat) (answers : Answers) : World × Option Errno :=
  match link w i answers with
  | .error err => (w,some err)
  | .ok w =>
    match if w.counts .openCount = 0 then answers.start else none with
    | some err => (delBss w i,some err)
    | none =>
      if !answers.permAddr then (delBss w i,some .addrNotAvail)
      else
        match attach wantMonitorVif w i answers with
        | (w,some err) => (delBss w i,some err)
        | (w,none) =>
          let w := w.setSdata i fun sdata => {sdata with running := true}
          match if (w.sdata i).type = .wds then answers.sta else none with
          | some err => (delBss w i,some err)
          | none => (w.adjust .openCount 1,none)

def ifaceOpen (n : Nat) (w : World) (i : Nat) (answers : Answers) : World × Option Errno :=
  if (w.sdata i).type = .p2pDevice then
    match answers.combinations with
    | some err => (w,some err)
    | none => doOpen wantMonitorVif w i answers
  else if !answers.validAddr then (w,some .addrNotAvail)
  else
    let (bss,err) := checkConcurrentIface w i answers.csaActive (List.range n) (w.sdata i).bss
    let w := w.setSdata i fun sdata => {sdata with bss := bss}
    match err.or answers.combinations with
    | some err => (w,some err)
    | none => doOpen wantMonitorVif w i answers

def stopFirst (w : World) (i : Nat) : World :=
  let w := w.setSdata i fun sdata => {sdata with running := false}
  match (w.sdata i).type with
  | .ap => (w.adjust .fifPspoll (-1)).adjust .fifProbeReq (-1)
  | .adhoc => w.adjust .fifProbeReq (-1)
  | _ => w

def uncount (w : World) (i : Nat) : World :=
  let w := w.adjust .openCount (-1)
  let flags := (w.sdata i).mntrFlags
  if (w.sdata i).type ≠ .monitor then unlinkVlan w i
  else if flags.cookFrames then w.adjust .cookedMntrs (-1)
  else adjustMonitorFlags (w.adjust .monitors (-1)) flags (-1)

def stopLast (w : World) (i : Nat) (virtualMonitor : Option Errno) : World :=
  let w := (uncount w i).setSdata i fun sdata => {sdata with bss := none}
  let w := if (w.sdata i).type = .monitor ∧ w.counts .monitors = 0 then delVirtualMonitor wantMonitorVif w else w
  if w.counts .openCount = 0 then w
  else if w.counts .monitors = w.counts .openCount then (addVirtualMonitor wantMonitorVif w virtualMonitor).1
  else w

def closeVlan (virtualMonitor : Option Errno) (w : World) (i : Nat) : World :=
  if (w.sdata i).running then stopLast wantMonitorVif (stopFirst w i) i virtualMonitor else w

def doStop (w : World) (i : Nat) (virtualMonitor : Option Errno) : World :=
  let w := stopFirst w i
  let w := if (w.sdata i).type = .ap then (w.sdata i).vlans.foldl (closeVlan wantMonitorVif virtualMonitor) w else w
  stopLast wantMonitorVif w i virtualMonitor

def changeFlags (w : World) (i : Nat) (flags : MonitorFlags) : World × Option Errno :=
  let old := (w.sdata i).mntrFlags
  if (w.sdata i).type ≠ .monitor then (w,none)
  else if (w.sdata i).running then
    if flags.cookFrames ≠ old.cookFrames ∨ flags.active ≠ old.active then (w,some .busy)
    else
      let w := (adjustMonitorFlags w old (-1)).setSdata i fun sdata => {sdata with mntrFlags := flags}
      (adjustMonitorFlags w flags 1,none)
  else (w.setSdata i fun sdata => {sdata with mntrFlags := flags},none)

-- Only interfaces that are down are opened, and only those that are up are stopped.
inductive Event where
  | open (i : Nat) (answers : Answers)
  | stop (i : Nat) (virtualMonitor : Option Errno)
  | flags (i : Nat) (flags : MonitorFlags)

def step (n : Nat) (w : World) (e : Event) : World :=
  match e with
  | .open i answers => if i < n ∧ (w.sdata i).running = false then (ifaceOpen wantMonitorVif n w i answers).1 else w
  | .stop i virtualMonitor => if i < n ∧ (w.sdata i).running = true then doStop wantMonitorVif w i virtualMonitor else w
  | .flags i flags => if i < n then (changeFlags w i flags).1 else w

def run (n : Nat) (w : World) (events : List Event) : World := events.foldl (step wantMonitorVif n) w

def start (sdata : Nat → Sdata) : World :=
  ⟨fun i => {sdata i with running := false,bss := none,vlans := []},fun _ => 0,false⟩

end iface

end Mac80211.Iface

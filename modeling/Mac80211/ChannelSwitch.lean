import Mac80211.Chanctx

namespace Mac80211.ChannelSwitch
open Chan

-- A pointer without data is none.
structure BeaconData where
  head : Option (List Nat)
  tail : Option (List Nat)
  beaconIes : Option (List Nat)
  proberespIes : Option (List Nat)
  assocrespIes : Option (List Nat)
  probeResp : Option (List Nat)

structure Beacon where
  addr : Nat
  head : List Nat
  tail : List Nat
  csaCurrentCounter : Nat
  csaCounterOffsets : List Nat

structure ProbeResp where
  addr : Nat
  data : List Nat
  csaCounterOffsets : List Nat

structure NextBeacon where
  addr : Nat
  data : BeaconData

structure Ap where
  beacon : Option Beacon
  probeResp : Option ProbeResp
  nextBeacon : Option NextBeacon

structure Ibss where
  joined : Bool
  chandef : Chandef
  presp : Option Nat

inductive CsaRole where
  | none | init | repeater
deriving DecidableEq

structure Mesh where
  csaRole : CsaRole
  preValue : BitVec 16
  csa : Option Nat
  beacon : Option Nat

inductive Kind where
  | ap (u : Ap)
  | adhoc (u : Ibss)
  | mesh (u : Mesh)
  | other

structure Sdata where
  u : Kind
  cacStarted : Bool
  csaActive : Bool
  csaChandef : Chandef
  csaBlockTx : Bool

structure Params where
  chandef : Chandef
  count : Nat
  radarRequired : Bool
  blockTx : Bool
  beaconAfter : BeaconData
  beaconCsa : BeaconData
  counterOffsetsBeacon : List Nat
  counterOffsetsPresp : List Nat

structure Answers where
  preChannelSwitch : Option Errno
  chanctx : Chan.Answers
  combinations : Option Errno
  dup : Bool
  beacon : Bool
  probeResp : Bool
  bss : Bool
  presp : Bool
  csa : Bool
  rebuild : Bool

structure World where
  chan : Chan.World
  sdata : Sdata
  busy : Bool

inductive Changed where
  | beacon | apProbeResp

inductive ChandefType where
  | noHt | ht20 | ht40Minus | ht40Plus
deriving DecidableEq

def chandefType (chandef : Chandef) : ChandefType :=
  match chandef.width with
  | .w20 => .ht20
  | .w40 => if chandef.centerFreq1 > chandef.centerFreq then .ht40Plus else .ht40Minus
  | _ => .noHt

def copied (data : Option (List Nat)) : Option (List Nat) := data.filter fun bytes => !bytes.isEmpty

-- The pointer to the probe response is put into what is copied.
def beaconDup (addr : Nat) (beacon : BeaconData) : NextBeacon :=
  ⟨addr,⟨copied beacon.head,copied beacon.tail,copied beacon.beaconIes,copied beacon.proberespIes,copied beacon.assocrespIes,none⟩⟩

structure Csa where
  count : Nat
  counterOffsetsBeacon : List Nat
  counterOffsetsPresp : List Nat

section channelSwitch
variable (cfg : Config) (maxCsaCounters : Nat) (answers : Answers)

def setProbeResp (heap : Heap) (u : Ap) (resp : Option (List Nat)) (csa : Csa) : Heap × Ap × Except Errno Bool :=
  match copied resp with
  | none => (heap,u,.ok false)
  | some data =>
    if !answers.probeResp then (heap,u,.error .noMem)
    else
      let new : ProbeResp := ⟨heap.next,data,csa.counterOffsetsPresp⟩
      let heap := match u.probeResp with
        | none => heap.alloc
        | some old => heap.alloc.free old.addr
      (heap,{u with probeResp := some new},.ok true)

def assignBeacon (heap : Heap) (u : Ap) (params : BeaconData) (csa : Csa) : Heap × Ap × Except Errno (List Changed) :=
  match params.head.or (u.beacon.map Beacon.head) with
  | none => (heap,u,.error .inval)
  | some head =>
    if !answers.beacon then (heap,u,.error .noMem)
    else
      let tail := (params.tail.or (u.beacon.map Beacon.tail)).getD []
      let new : Beacon := ⟨heap.next,head,tail,csa.count,csa.counterOffsetsBeacon⟩
      match setProbeResp answers heap.alloc u params.probeResp csa with
      | (heap,u,.error err) => (heap,u,.error err)
      | (heap,u,.ok probeResp) =>
        let heap := match u.beacon with
          | none => heap
          | some old => heap.free old.addr
        (heap,{u with beacon := some new},.ok (if probeResp then [.beacon,.apProbeResp] else [.beacon]))

def setCsaBeaconAp (heap : Heap) (u : Ap) (params : Params) : Heap × Ap × Except Errno (List Changed) :=
  if !answers.dup then (heap,{u with nextBeacon := none},.error .noMem)
  else
    let next := beaconDup heap.next params.beaconAfter
    let heap := heap.alloc
    let u := {u with nextBeacon := some next}
    if params.count ≤ 1 then (heap,u,.ok [])
    else if params.counterOffsetsBeacon.length > maxCsaCounters ∨ params.counterOffsetsPresp.length > maxCsaCounters then
      (heap,u,.error .inval)
    else
      match assignBeacon answers heap u params.beaconCsa ⟨params.count,params.counterOffsetsBeacon,params.counterOffsetsPresp⟩ with
      | (heap,u,.error err) => (heap.free next.addr,u,.error err)
      | (heap,u,.ok changed) => (heap,u,.ok changed)

def ibssCsaBeacon (heap : Heap) (u : Ibss) : Heap × Ibss × Except Errno (List Changed) :=
  if !answers.bss then (heap,u,.error .inval)
  else if !answers.presp then (heap,u,.error .noMem)
  else
    let freed := match u.presp with
      | none => heap.alloc
      | some old => heap.alloc.free old
    (freed,{u with presp := some heap.next},.ok [.beacon])

def switchable (chandef : Chandef) : Bool :=
  match chandef.width with
  | .w40 | .w5 | .w10 | .noHt20 | .w20 => true
  | _ => false

def setCsaBeaconIbss (heap : Heap) (u : Ibss) (params : Params) : Heap × Ibss × Except Errno (List Changed) :=
  if !u.joined then (heap,u,.error .inval)
  else if params.chandef.width ≠ u.chandef.width then (heap,u,.error .inval)
  else if params.chandef.width = .w40 ∧ chandefType params.chandef ≠ chandefType u.chandef then (heap,u,.error .inval)
  else if !switchable params.chandef then (heap,u,.error .inval)
  else if u.chandef.band ≠ params.chandef.band then (heap,u,.error .inval)
  else if params.count > 1 then ibssCsaBeacon answers heap u
  else (heap,u,.ok [])

def meshCsaBeacon (heap : Heap) (u : Mesh) : Heap × Mesh × Except Errno (List Changed) :=
  if !answers.csa then (heap,u,.error .noMem)
  else
    let csa := heap.next
    let heap := heap.alloc
    if !answers.rebuild then (heap.free csa,{u with csa := none},.error .noMem)
    else
      let freed := match u.beacon with
        | none => heap.alloc
        | some old => heap.alloc.free old
      (freed,{u with csa := some csa,beacon := some heap.next},.ok [.beacon])

def setCsaBeaconMesh (heap : Heap) (u : Mesh) (params : Params) (chandef : Chandef) : Heap × Mesh × Except Errno (List Changed) :=
  if params.chandef.width ≠ chandef.width then (heap,u,.error .inval)
  else if chandef.band ≠ params.chandef.band then (heap,u,.error .inval)
  else
    let u := if u.csaRole = .none then {u with csaRole := .init,preValue := if u.preValue = 0 then 1 else u.preValue + 1} else u
    if params.count > 1 then
      match meshCsaBeacon answers heap u with
      | (heap,u,.error err) => (heap,{u with csaRole := .none},.error err)
      | out => out
    else (heap,u,.ok [])

def setCsaBeacon (w : World) (i : Nat) (params : Params) : World × Except Errno (List Changed) :=
  let put := fun (heap : Heap) (u : Kind) => {w with chan := {w.chan with heap := heap},sdata := {w.sdata with u := u}}
  match w.sdata.u with
  | .ap u =>
    let out := setCsaBeaconAp maxCsaCounters answers w.chan.heap u params
    (put out.1 (.ap out.2.1),out.2.2)
  | .adhoc u =>
    let out := setCsaBeaconIbss answers w.chan.heap u params
    (put out.1 (.adhoc out.2.1),out.2.2)
  | .mesh u =>
    let out := setCsaBeaconMesh answers w.chan.heap u params (w.chan.vifs i).chandef
    (put out.1 (.mesh out.2.1),out.2.2)
  | .other => (w,.error .opNotSupp)

def refusal (w : World) (i : Nat) (params : Params) : Except Errno Chanctx :=
  if w.busy then .error .busy
  else if w.sdata.cacStarted then .error .busy
  else if params.chandef = (w.chan.vifs i).chandef then .error .inval
  else if w.sdata.csaActive then .error .busy
  else
    match (w.chan.vifs i).chanctxConf.bind w.chan.ctx with
    | none => .error .busy
    | some ctx =>
      match answers.preChannelSwitch with
      | some err => .error err
      | none => .ok ctx

-- A switch that is accepted is announced, or carried out by ieee80211_csa_finalize.
def channelSwitch (w : World) (i : Nat) (params : Params) : World × Except Errno (List Changed) :=
  match refusal answers w i params with
  | .error err => (w,.error err)
  | .ok ctx =>
    match vifReserveChanctx cfg w.chan answers.chanctx i params.chandef ctx.mode params.radarRequired with
    | (chan,some err) => ({w with chan := chan},.error err)
    | (chan,none) =>
      match answers.combinations with
      | some err => ({w with chan := vifUnreserveChanctx chan i},.error err)
      | none =>
        match setCsaBeacon maxCsaCounters answers {w with chan := chan} i params with
        | (w,.error err) => ({w with chan := vifUnreserveChanctx w.chan i},.error err)
        | (w,.ok changed) =>
          ({w with sdata := {w.sdata with csaActive := true,csaChandef := params.chandef,csaBlockTx := params.blockTx}},.ok changed)

end channelSwitch

end Mac80211.ChannelSwitch

import Mac80211.ChanctxUse
import Mac80211.ChannelSwitch

namespace Mac80211.StartAp
open ChannelSwitch (Ap BeaconData Beacon ProbeResp assignBeacon setProbeResp copied)

inductive Errno where
  | already
  | other (err : Chan.Errno)

inductive Smps where
  | off | static | dynamic

-- headroom: ieee80211_cs_headroom for the type of the interface.
structure Crypto where
  controlPortProtocol : UInt16
  controlPortNoEncrypt : Bool
  headroom : Nat

structure Vlan where
  chanctxConf : Option Nat
  crypto : Crypto
  carrier : Bool

structure BssConf where
  beaconInt : Nat
  dtimPeriod : Nat
  enableBeacon : Bool
  ssid : List UInt8
  hiddenSsid : Bool
  oppps : UInt8

structure World where
  chan : Chan.World
  heap : Chan.Heap
  u : Ap
  smpsMode : Smps
  neededRxChains : Nat
  crypto : Crypto
  bssConf : BssConf
  carrier : Bool
  vlans : List Vlan

structure Params where
  smpsMode : Option Smps
  chandef : Chan.Chandef
  crypto : Crypto
  vlanHeadroom : Nat
  beaconInterval : Nat
  dtimPeriod : Nat
  ssid : List UInt8
  hiddenSsid : Bool
  p2pCtwindow : UInt8
  p2pOppPs : Bool
  beacon : BeaconData

structure Answers where
  use : Chan.Env
  release : Chan.Env
  memory : ChannelSwitch.Answers
  startAp : Option Chan.Errno

def bssConf (p : Params) : BssConf :=
  ⟨p.beaconInterval,p.dtimPeriod,true,p.ssid,p.hiddenSsid,p.p2pCtwindow &&& 0x7f ||| if p.p2pOppPs then 0x80 else 0⟩

section start
variable (cfg : Chan.Config) (rxChains i : Nat)

def World.copyChanctxToVlans (w : World) : World :=
  {w with vlans := w.vlans.map fun vlan => {vlan with chanctxConf := (w.chan.vifs i).chanctxConf}}

def World.configure (w : World) (p : Params) : World := {w with
  crypto := p.crypto,
  vlans := w.vlans.map fun vlan => {vlan with crypto := {p.crypto with headroom := p.vlanHeadroom}},
  bssConf := StartAp.bssConf p}

def World.releaseChannel (w : World) (a : Answers) : World := {w with chan := Chan.vifReleaseChannel cfg a.release w.chan i}

def ieee80211StartAp (a : Answers) (w : World) (p : Params) : World × Option Errno :=
  if w.u.beacon.isSome then (w,some .already)
  else
    match p.smpsMode with
    | none => (w,some (.other .inval))
    | some mode =>
      let w := {w with smpsMode := mode,neededRxChains := rxChains}
      match Chan.vifUseChannel cfg a.use w.chan i p.chandef .shared with
      | (chan,some err) => ({w with chan := chan},some (.other err))
      | (chan,none) =>
        let w := (({w with chan := chan} : World).copyChanctxToVlans i).configure p
        match assignBeacon a.memory w.heap w.u p.beacon ⟨0,[],[]⟩ with
        | (heap,u,.error err) => (({w with heap := heap,u := u} : World).releaseChannel cfg i a,some (.other err))
        | (heap,u,.ok _) =>
          match a.startAp with
          | some err =>
            let heap := (u.beacon.map Beacon.addr).elim heap heap.free
            (({w with heap := heap,u := {u with beacon := none}} : World).releaseChannel cfg i a,some (.other err))
          | none => ({w with heap := heap,u := u,carrier := true,vlans := w.vlans.map fun vlan => {vlan with carrier := true}},none)

def Acquires (a : Answers) (w : World) (p : Params) : Prop :=
  w.u.beacon = none ∧ p.smpsMode.isSome ∧ (Chan.vifUseChannel cfg a.use w.chan i p.chandef .shared).2 = none

-- A later call ends as it would have without it.
structure Undone (before after : World) : Prop where
  chanctx : (after.chan.vifs i).chanctxConf = none
  vlans : ∀ vlan ∈ after.vlans, vlan.chanctxConf = none
  beacon : after.u.beacon = none
  probeResp : after.u.probeResp = none
  enableBeacon : after.bssConf.enableBeacon = before.bssConf.enableBeacon
  buffers : ∀ addr ∈ after.heap.allocated, addr ∈ before.heap.allocated
  later : ∀ a p, (Chan.vifUseChannel cfg a.use after.chan i p.chandef .shared).2 = (Chan.vifUseChannel cfg a.use before.chan i p.chandef .shared).2 →
    (ieee80211StartAp cfg rxChains i a after p).2 = (ieee80211StartAp cfg rxChains i a before p).2

end start

section use
open Chan


theorem use_chanctx (ran : vifUseChannel cfg env w i chandef mode = (after,none)) :
    (after.vifs i).chanctxConf.isSome := by
  unfold vifUseChannel at ran
  split at ran
  · cases ran
  · split at ran
    · cases ran
    · obtain ⟨world,result⟩ := Prod.mk.inj ran
      rw [result] at world
      rw [← world]
      unfold assignVifChanctx at result ⊢
      dsimp only at result ⊢
      split at result
      · cases result
      · rw [Option.isSome_none,if_neg Bool.false_ne_true,recalcLeft_vifs,Chan.World.setConf,setVif_self]
        rfl

end use

section start


theorem assign_first (idle : u.beacon = none) (memory : ChannelSwitch.Answers) (heap : Chan.Heap) (data : BeaconData) :
    assignBeacon memory heap u data ⟨0,[],[]⟩ = match data.head with
      | none => (heap,u,.error .inval)
      | some head =>
        if !memory.beacon then (heap,u,.error .noMem)
        else
          let new : Beacon := ⟨heap.next,head,data.tail.getD [],0,[]⟩
          match copied data.probeResp with
          | none => (heap.alloc,{u with beacon := some new},.ok [.beacon])
          | some resp =>
            if !memory.probeResp then (heap.alloc,u,.error .noMem)
            else
              let probeResp : ProbeResp := ⟨heap.next + 1,resp,[]⟩
              ((u.probeResp.map ProbeResp.addr).elim heap.alloc.alloc heap.alloc.alloc.free,
                {u with beacon := some new,probeResp := some probeResp},.ok [.beacon,.apProbeResp]) := by
  obtain ⟨beacon,probeResp,_⟩ := u
  cases idle
  unfold assignBeacon setProbeResp
  cases data.head <;> cases memory.beacon <;> cases copied data.probeResp <;> cases memory.probeResp <;>
    cases probeResp <;> cases data.tail <;> rfl

theorem later_same (idle : w.u.beacon = none) (idle' : w'.u.beacon = none)
    (same : (Chan.vifUseChannel cfg a.use w'.chan i p.chandef .shared).2 = (Chan.vifUseChannel cfg a.use w.chan i p.chandef .shared).2) :
    (ieee80211StartAp cfg rxChains i a w' p).2 = (ieee80211StartAp cfg rxChains i a w p).2 := by
  unfold ieee80211StartAp
  rw [idle,idle']
  cases p.smpsMode with
  | none => rfl
  | some =>
    dsimp only [Option.isSome_none]
    generalize Chan.vifUseChannel cfg a.use w'.chan i p.chandef .shared = out' at same
    generalize Chan.vifUseChannel cfg a.use w.chan i p.chandef .shared = out at same
    obtain ⟨_,result⟩ := out'
    obtain ⟨_,_⟩ := out
    cases same
    cases result with
    | some => rfl
    | none =>
      dsimp only [World.configure,World.copyChanctxToVlans]
      rw [assign_first idle,assign_first idle']
      cases p.beacon.head <;> cases a.memory.beacon <;> cases copied p.beacon.probeResp <;> cases a.memory.probeResp <;>
        cases a.startAp <;> rfl

theorem released_undone (rxChains : Nat) (granted : Chan.vifUseChannel cfg a.use w.chan i p.chandef .shared = (chan,none))
    (before : w.u.beacon = none) (idle : u.beacon = none) (mode : Smps) (heap : Chan.Heap) :
    let set := (({w with smpsMode := mode,neededRxChains := rxChains,chan := chan} : World).copyChanctxToVlans i).configure p
    Undone cfg rxChains i w (({set with heap := heap,u := u} : World).releaseChannel cfg i a) ↔
      w.vlans = [] ∧ u.probeResp = none ∧ w.bssConf.enableBeacon = true ∧ ∀ addr ∈ heap.allocated, addr ∈ w.heap.allocated := by
  have conf := use_chanctx granted
  constructor
  · rintro ⟨_,vlans,_,probeResp,enabled,buffers,_⟩
    refine ⟨?_,probeResp,enabled.symm,buffers⟩
    cases there : w.vlans with
    | nil => rfl
    | cons =>
      have first := vlans _ (by
        dsimp only [World.releaseChannel,World.configure,World.copyChanctxToVlans]
        rw [there,List.map_cons,List.map_cons]
        exact List.mem_cons_self)
      dsimp only at first
      rw [first] at conf
      cases conf
  · rintro ⟨vlans,probeResp,enabled,buffers⟩
    refine ⟨Chan.release_free ..,?_,idle,probeResp,enabled.symm,buffers,fun a p same => later_same before idle same⟩
    rw [vlans]
    exact fun _ member => nomatch member

def Clean (a : Answers) (w : World) (p : Params) : Prop :=
  w.vlans = [] ∧ w.u.probeResp = none ∧ w.bssConf.enableBeacon = true ∧
    (p.beacon.head = none ∨ a.memory.beacon = false ∨ copied p.beacon.probeResp = none)

theorem failed_start_undone_iff (cfg : Chan.Config) (rxChains i : Nat) (a : Answers) (w : World) (p : Params)
    (fresh : ∀ addr ∈ w.heap.allocated, addr < w.heap.next) (acquires : Acquires cfg i a w p)
    (failed : (ieee80211StartAp cfg rxChains i a w p).2 ≠ none) :
    Undone cfg rxChains i w (ieee80211StartAp cfg rxChains i a w p).1 ↔ Clean a w p := by
  obtain ⟨idle,smps,granted⟩ := acquires
  obtain ⟨mode,smps⟩ := Option.isSome_iff_exists.mp smps
  cases used : Chan.vifUseChannel cfg a.use w.chan i p.chandef .shared with
  | mk chan result =>
  rw [used] at granted
  cases granted
  have left (u : Ap) (idle' : u.beacon = none) (heap : Chan.Heap) := released_undone (a := a) rxChains used idle idle' mode heap
  unfold ieee80211StartAp at failed ⊢
  rw [idle,smps] at failed ⊢
  dsimp only [Option.isSome_none] at failed left ⊢
  rw [used] at failed ⊢
  dsimp only at failed ⊢
  generalize named : (({w with smpsMode := mode,neededRxChains := rxChains,chan := chan} : World).copyChanctxToVlans i).configure p = set at *
  have heap : set.heap = w.heap := by rw [← named]; rfl
  have u : set.u = w.u := by rw [← named]; rfl
  have new : w.heap.next ∉ w.heap.allocated := fun member => Nat.lt_irrefl _ (fresh _ member)
  rw [if_neg Bool.false_ne_true,heap,u,assign_first idle] at failed ⊢
  unfold Clean
  cases there : p.beacon.head with
  | none =>
    refine (left w.u idle w.heap).trans ?_
    simp
  | some head =>
    rw [there] at failed
    cases memory : a.memory.beacon with
    | false =>
      refine (left w.u idle w.heap).trans ?_
      simp
    | true =>
      rw [memory] at failed
      cases given : copied p.beacon.probeResp with
      | none =>
        rw [given] at failed
        cases answer : a.startAp with
        | none =>
          rw [answer] at failed
          exact absurd rfl failed
        | some err =>
          refine (left {w.u with beacon := none} rfl _).trans ?_
          simp [Chan.Heap.alloc,Chan.Heap.free]
      | some resp =>
        cases second : a.memory.probeResp with
        | false =>
          refine (left w.u idle w.heap.alloc).trans (iff_of_false ?_ (by simp))
          rintro ⟨_,_,_,buffers⟩
          exact new (buffers _ List.mem_cons_self)
        | true =>
          rw [given,second] at failed
          cases answer : a.startAp with
          | none =>
            rw [answer] at failed
            exact absurd rfl failed
          | some err =>
            refine (left {w.u with beacon := none,probeResp := some ⟨w.heap.next + 1,resp,[]⟩} rfl _).trans (iff_of_false ?_ (by simp))
            rintro ⟨_,gone,_⟩
            cases gone

end start

def oneChannel : Chan.Config := ⟨true,true,1,fun a b => if a = b then some a else none⟩

def willing : Chan.Env := ⟨none,⟨true,none⟩,fun _ => none,fun _ => none,true,none,fun _ => none,[]⟩

def channel : Chan.Chandef := ⟨1,0,2412,.w20,2412,0⟩

def someParams : Params := ⟨some .off,channel,⟨0x888e,false,8⟩,8,100,2,[],false,0,false,⟨some [1],none,none,none,none,none⟩⟩

def idleAp (enabled : Bool) (vlans : List Vlan) : World :=
  ⟨⟨[],fun _ => ⟨none,channel,none,channel,false,false,[]⟩,⟨[],7⟩⟩,⟨[],1⟩,⟨none,none,none⟩,.off,1,⟨0,false,0⟩,⟨0,0,enabled,[],false,0⟩,false,vlans⟩

def refused : Answers :=
  ⟨willing,willing,⟨none,⟨true,none⟩,none,true,true,true,true,true,true,true⟩,some (.driver 5)⟩

theorem failed_start_undone_sample : Undone oneChannel 1 0 (idleAp true []) (ieee80211StartAp oneChannel 1 0 refused (idleAp true []) someParams).1 :=
  (failed_start_undone_iff oneChannel 1 0 refused (idleAp true []) someParams (fun _ member => nomatch member) ⟨rfl,rfl,rfl⟩
    (fun none_ => nomatch none_)).mpr ⟨rfl,rfl,rfl,Or.inr (Or.inr rfl)⟩

-- The context is freed, but the VLAN still points to it.
theorem failed_start_leaves :
    let w := idleAp false [⟨none,⟨0,false,0⟩,false⟩]
    let out := ieee80211StartAp oneChannel 1 0 refused w someParams
    Acquires oneChannel 0 refused w someParams ∧ out.2 = some (.other (.driver 5)) ∧ out.1.vlans.map Vlan.chanctxConf = [some 7] ∧
      out.1.chan.heap.allocated = [] ∧ out.1.bssConf.enableBeacon = true ∧ ¬Undone oneChannel 1 0 w out.1 :=
  ⟨⟨rfl,rfl,rfl⟩,rfl,rfl,rfl,rfl,fun undone => nomatch undone.enableBeacon⟩

end Mac80211.StartAp

import Mac80211.MncGeneration

namespace Mac80211.MncTx
open Loops

theorem encodeOne_log (ran : encodeOne src p codingLen mncHdrlen skb e = some after) : after.kernel.log = e.kernel.log := by
  obtain ⟨_,keeps,_⟩ := draw_block e (e.skbNew.data + etherHeadLen) p
  unfold encodeOne at ran
  dsimp only at ran
  split at ran
  · cases ran
  · cases ran
    exact keeps.log

theorem makeSkbNew_log (ran : makeSkbNew par skbs p eid kernel = some (made,after)) : after.log = kernel.log := by
  unfold makeSkbNew at ran
  cases skbs with
  | nil => cases ran; rfl
  | cons first rest =>
    dsimp only at ran
    split at ran
    · cases ran; rfl
    · split at ran
      · cases ran; rfl
      · obtain ⟨e,encoded,same⟩ := Option.map_eq_some_iff.mp ran
        cases same
        refine foldlM_keeps (fun _ (e : Encoding) => e.kernel.log = kernel.log) (first :: rest) rfl ?_ encoded
        intro i _ s t kept one
        split at one
        · cases one
        · exact (encodeOne_log one).trans kept

theorem enqueueSkbOriginal_log (ran : enqueueSkbOriginal skbs p eid result kernel = some (made,after)) :
    after.log = kernel.log := by
  unfold enqueueSkbOriginal at ran
  cases skbs with
  | nil => cases ran; rfl
  | cons first rest =>
    dsimp only at ran
    split at ran
    · cases ran; rfl
    split at ran
    · cases ran; rfl
    · obtain ⟨e,enqueued,same⟩ := Option.map_eq_some_iff.mp ran
      cases same
      refine foldlM_keeps (fun _ (e : Enqueued) => e.kernel.log = kernel.log) (first :: rest) rfl ?_ enqueued
      intro i _ s t kept one
      split at one
      · cases one
      · cases one
        exact kept

theorem codedPackets_log (ran : codedPackets par skbs eid count result kernel = some (made,after)) :
    after.log = kernel.log := by
  refine foldlM_keeps (fun _ (s : List Skb × Kernel) => s.2.log = kernel.log) _ rfl ?_ ran
  rintro i _ ⟨_,_⟩ t kept one
  dsimp only at one kept
  split at one
  · cases one
  · rename_i encoded
    cases one
    exact (makeSkbNew_log encoded).trans kept
  · rename_i encoded
    cases one
    exact (makeSkbNew_log encoded).trans kept

theorem encodedPackets_log (ran : encodedPackets par skbs eid kernel = some (made,after)) : after.log = kernel.log := by
  unfold encodedPackets at ran
  split at ran
  · split at ran
    · cases ran
    · rename_i enqueued
      split at ran
      · exact (codedPackets_log ran).trans (enqueueSkbOriginal_log enqueued)
      · cases ran
        exact enqueueSkbOriginal_log enqueued
  · exact codedPackets_log ran

theorem sends_log (result : List Skb) (dev : NetDevice) (kernel : Kernel) :
    result.foldl (fun kernel skb => ieee80211SubifStartXmit skb dev kernel) kernel =
      {kernel with log := kernel.log ++ result.map fun skb => .sent skb dev} := by
  induction result generalizing kernel with
  | nil => simp
  | cons skb rest ih =>
    rw [List.foldl_cons,ih]
    simp [ieee80211SubifStartXmit,Kernel.record]

theorem mncEncodingTx_sends (ran : mncEncodingTx par skbs dev eid count kernel = some (next,after)) :
    ∃ result middle, encodedPackets par skbs eid kernel = some (result,middle) ∧
      next = (if par.src then nextEid count else count) ∧
      after = {middle with log := kernel.log ++ result.map fun skb => .sent skb dev} := by
  unfold mncEncodingTx at ran
  split at ran
  · cases ran
  · rename_i result middle encoded
    cases ran
    refine ⟨result,middle,encoded,rfl,?_⟩
    rw [sends_log,encodedPackets_log encoded]

theorem codedPackets_empty (par : TrParam) (eid : UInt8) (count : Nat) (result : List Skb) (kernel : Kernel) :
    codedPackets par [] eid count result kernel = some (result,kernel) := by
  have walked := @foldlM_returns (List Skb × Kernel) Nat (result,kernel) (fun _ s => s = (result,kernel))
    (List.range' 0 (count - 0)) rfl (fun s _ => some s) fun i h s same => ⟨s,rfl,same⟩
  obtain ⟨s,ran,same⟩ := walked
  rw [same] at ran
  exact ran

theorem codedPackets_coded (par : TrParam) (encodable : Encodable par.src skbs) (eid : UInt8) (count : Nat)
    (result : List Skb) (kernel : Kernel) :
    ∃ more after, codedPackets par skbs eid count result kernel = some (result ++ more,after) ∧ more.length = count ∧
      after.nextSkb = kernel.nextSkb + count ∧
      ∀ wire ∈ more, (generationOf par.src skbs P eid).Coded (skbPull wire etherHeadLen) := by
  have walked : ∃ s, codedPackets par skbs eid count result kernel = some s ∧
      ∃ more, s.1 = result ++ more ∧ more.length = (List.range' 0 (count - 0)).length ∧
        s.2.nextSkb = kernel.nextSkb + (List.range' 0 (count - 0)).length ∧
        ∀ wire ∈ more, (generationOf par.src skbs P eid).Coded (skbPull wire etherHeadLen) := by
    refine foldlM_returns (fun i (s : List Skb × Kernel) => ∃ more, s.1 = result ++ more ∧ more.length = i ∧
      s.2.nextSkb = kernel.nextSkb + i ∧ ∀ wire ∈ more, (generationOf par.src skbs P eid).Coded (skbPull wire etherHeadLen))
      _ ⟨[],by simp,rfl,rfl,fun _ none_yet => (nomatch none_yet)⟩ ?_
    rintro i _ ⟨_,before⟩ ⟨more,rfl,length,next,coded⟩
    obtain ⟨skb,after,encoded,_,one,_,_,packet⟩ := makeSkbNew_coded par encodable (show 0 < P by decide) (by decide) eid before
    refine ⟨(result ++ more ++ [skb],after),by simp only [encoded],more ++ [skb],by simp,by simp [length],?_,?_⟩
    · dsimp only at next ⊢
      rw [one,next]
      rfl
    · intro wire member
      rcases List.mem_append.mp member with old | new
      · exact coded wire old
      · rw [List.mem_singleton.mp new]
        exact packet
  obtain ⟨⟨_,after⟩,ran,more,rfl,length,next,coded⟩ := walked
  exact ⟨more,after,ran,by simpa using length,by simpa using next,coded⟩

-- Of mnc_tx_timer only whether it is pending is kept.
structure Sender where
  skbsOriginal : List Skb
  eid : UInt8
  mncTxTimer : Bool
  devPrev : Option NetDevice
  i : Bool
  par : TrParam
  kernel : Kernel

def portnum (skb : Skb) : Nat :=
  ((skb.mem (skb.transportHeader + 2)).toNat <<< 8) ||| (skb.mem (skb.transportHeader + 3)).toNat

def codedCount (par : TrParam) : Nat := if par.sys then par.dataN.toNat - par.dataK.toNat else par.dataN.toNat

-- skb_put in make_skb_new: the copy of the first packet has no room for the coding vectors.
def putPanics (par : TrParam) (skbs : List Skb) : Bool :=
  codedCount par ≠ 0 && skbs ≠ [] && (skbs.getD 0 default).tailroom < P * P * skbs.length + 3

def flush (dev : NetDevice) (s : Sender) : Returns Sender :=
  if putPanics s.par s.skbsOriginal then none
  else (mncEncodingTx s.par s.skbsOriginal dev s.eid s.eid s.kernel).map fun (eid,kernel) =>
    {s with skbsOriginal := [],eid := eid,kernel := skbQueuePurge s.skbsOriginal kernel}

-- startCheck: the answer of tl_start_check.
def ieee80211MatrixNetworkCoding (startCheck : Bool) (skb : Skb) (dev : NetDevice) (s : Sender) : Returns Sender :=
  if portnum skb ≠ 5555 ∧ portnum skb ≠ 5550 then some {s with kernel := ieee80211SubifStartXmit skb dev s.kernel}
  else if portnum skb = 5550 then
    if startCheck then some {s with kernel := kfreeSkb (some skb) s.kernel}
    else some {s with kernel := ieee80211SubifStartXmit skb dev s.kernel}
  else
    let s := if s.i then s else {s with skbsOriginal := [],mncTxTimer := false,i := true}
    let s := {s with devPrev := some dev,skbsOriginal := s.skbsOriginal ++ [skb]}
    if s.skbsOriginal.length = s.par.dataK.toNat then flush dev {s with mncTxTimer := false}
    else some {s with mncTxTimer := true}

def mncTxTimerFunc (s : Sender) : Returns Sender :=
  match s.devPrev with
  | none => none
  | some dev => flush dev s

def Sender.initial (random : Nat → UInt8) : Sender := ⟨[],1,false,none,false,{},⟨0,random,0,[]⟩⟩

inductive Event where
  | packet (skb : Skb) (dev : NetDevice)
  | setParam (src sys : Bool) (dataK dataN : UInt8) (tfK tfThre : UInt32) (maxRelayN : UInt8)
  | expire

def step : Event → Sender → Returns Sender
  | .packet skb dev,s => ieee80211MatrixNetworkCoding false {skb with id := s.kernel.nextSkb} dev
      {s with kernel := {s.kernel with nextSkb := s.kernel.nextSkb + 1}}
  | .setParam src sys dataK dataN tfK tfThre maxRelayN,s =>
    some {s with par := trSetParam src sys dataK dataN tfK tfThre maxRelayN}
  | .expire,s => mncTxTimerFunc {s with mncTxTimer := false}

def Event.Occurs : Event → Sender → Prop
  | .packet skb _,_ => portnum skb = 5555
  | .setParam ..,_ => True
  | .expire,s => s.mncTxTimer = true

structure Call where
  eid : UInt8
  skbs : List Skb

def Event.accepts : Event → Sender → List Skb
  | .packet skb _,s => [{skb with id := s.kernel.nextSkb}]
  | .setParam ..,_ => []
  | .expire,_ => []

def Event.calls : Event → Sender → List Call
  | .packet skb _,s =>
    if s.skbsOriginal.length + 1 = s.par.dataK.toNat then
      [⟨s.eid,s.skbsOriginal ++ [{skb with id := s.kernel.nextSkb}]⟩]
    else []
  | .setParam ..,_ => []
  | .expire,s => [⟨s.eid,s.skbsOriginal⟩]

inductive Runs (random : Nat → UInt8) (met : Event → Sender → Prop) : List Skb → List Call → Sender → Prop where
  | start : Runs random met [] [] (Sender.initial random)
  | step (prior : Runs random met accepted calls s) (occurs : e.Occurs s) (ok : met e s) (ran : step e s = some t) :
      Runs random met (accepted ++ e.accepts s) (calls ++ e.calls s) t

end Mac80211.MncTx

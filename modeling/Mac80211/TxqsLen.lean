import Mac80211.Queues
import Mac80211.Tally

namespace Mac80211.TxqsLen

open Function (update update_of_ne update_self)
open Queues (VifType)
open Tally

-- vif is what is in its control block by then.
structure Skb where
  priority : Nat
  isData : Bool
  psResponse : Bool
  vif : Nat

inductive Txq where
  | vif (sdata : Nat)
  | sta (sta tid : Nat)
deriving DecidableEq

def ieee8021dToAc (up : Nat) : Nat := [2,3,3,2,1,1,0,0].getD up 2

def Txq.ac : Txq → Nat
  | .vif _ => 2
  | .sta _ tid => ieee8021dToAc (tid % 8)

structure StaInfo where
  sdata : Nat
  vif : Nat
  uploaded : Bool

-- With a driver that has wake_tx_queue. queueControl is IEEE80211_HW_QUEUE_CONTROL, maxPending is txq_ac_max_pending as the driver asks for it.
structure Config where
  hwQueues : Nat
  queueControl : Bool
  maxPending : Nat
  interfaces : List Nat
  vifType : Nat → VifType
  hwQueue : Nat → Nat → Nat
  cabQueue : Nat → Option Nat
  distinct : interfaces.Nodup
  bssMember : ∀ d ∈ interfaces, ∀ bss, vifType d = .apVlan bss → bss ∈ interfaces

-- subqueue: which are stopped. reached is not in the code: stopped by ieee80211_drv_tx, and neither woken
-- nor stopped as a whole since. fault: something was reached through a null pointer.
structure World where
  stations : List Nat
  sta : Nat → StaInfo
  txqs : Txq → List Skb
  txqsLen : Nat → Nat → Int
  subqueue : Nat → Nat → Bool
  reached : Nat → Nat → Bool
  fault : Bool

-- Whether there is a reason for a queue to be stopped, and whether frames are pending.
structure Hw where
  stopped : Nat → Bool
  pending : Nat → Bool

def World.setTxq (w : World) (q : Txq) (skbs : List Skb) : World := {w with txqs := update w.txqs q skbs}
def World.addLen (w : World) (d ac : Nat) (n : Int) : World :=
  {w with txqsLen := update w.txqsLen d (update (w.txqsLen d) ac (w.txqsLen d ac + n))}

def World.txqVif (w : World) : Txq → Nat
  | .vif d => d
  | .sta s _ => (w.sta s).vif

section txqs
variable (cfg : Config)

def Config.nAcs : Nat := if cfg.hwQueues < 4 then 1 else 4

def Config.txqAcMaxPending : Nat := if cfg.maxPending = 0 then 64 else cfg.maxPending

def wakes (hw : Hw) (w : World) (queue d ac : Nat) : Bool :=
  cfg.interfaces.contains d && decide (ac < cfg.nAcs) && !(cfg.cabQueue d).any hw.stopped &&
    !decide (w.txqsLen d ac > cfg.txqAcMaxPending) &&
    (cfg.hwQueue d ac == queue || cfg.cabQueue d == some queue && !hw.stopped (cfg.hwQueue d ac) && !hw.pending (cfg.hwQueue d ac))

def propagateQueueWake (hw : Hw) (w : World) (queue : Nat) : World :=
  {w with
    subqueue := fun d ac => w.subqueue d ac && !wakes cfg hw w queue d ac,
    reached := fun d ac => w.reached d ac && !wakes cfg hw w queue d ac}

-- A monitor that is not active sends as the virtual monitor, if there is one.
def transmitVif (d : Nat) (monitorSdata : Option Nat) : Option Nat :=
  match cfg.vifType d with
  | .monitor active => if active then some d else monitorSdata
  | .apVlan bss => some bss
  | .other => some d

-- The virtual monitor is not one of the interfaces, and has no queue.
def txqOf (vif : Option Nat) (pubsta : Option Nat) (skb : Skb) : Option Txq :=
  if skb.psResponse then none
  else if !skb.isData then none
  else
    match pubsta with
    | some s => some (.sta s (skb.priority % 16))
    | none => (vif.filter cfg.interfaces.contains).map .vif

def drvTx (w : World) (vif : Option Nat) (pubsta : Option Nat) (skb : Skb) : World :=
  match txqOf cfg vif pubsta skb,vif with
  | none,_ => w
  -- sdata is a null pointer.
  | some _,none => {w with fault := true}
  | some q,some vif =>
    let w := w.addLen vif q.ac 1
    let stop := decide (w.txqsLen vif q.ac ≥ cfg.txqAcMaxPending)
    let w := {w with
      subqueue := if stop then update w.subqueue vif (update (w.subqueue vif) q.ac true) else w.subqueue,
      reached := if stop then update w.reached vif (update (w.reached vif) q.ac true) else w.reached,
      -- The virtual monitor has no net device whose subqueue could be stopped.
      fault := w.fault || stop && !cfg.interfaces.contains vif}
    w.setTxq q (w.txqs q ++ [{skb with vif := vif}])

-- One frame whose hardware queue runs. A station is looked up by its address only, on whatever interface.
def tx (w : World) (d : Nat) (monitorSdata s : Option Nat) (skb : Skb) : World :=
  let vif := transmitVif cfg d monitorSdata
  if vif.isNone && cfg.queueControl then w else drvTx cfg w vif (s.filter fun s => (w.sta s).uploaded) skb

-- txqStop is IEEE80211_TXQ_STOP.
def txDequeue (w : World) (q : Txq) (txqStop : Bool) (hw : Hw) : World :=
  if txqStop then w
  else
    match w.txqs q with
    | [] => w
    | _ :: rest =>
      let d := w.txqVif q
      let w := (w.setTxq q rest).addLen d q.ac (-1)
      if w.subqueue d q.ac then propagateQueueWake cfg hw w (cfg.hwQueue d q.ac) else w

-- With ieee80211_init_tx_queue for each TID.
def addStation (w : World) (s d : Nat) (uploaded : Bool) : World :=
  {w with
    stations := s :: w.stations,
    sta := update w.sta s ⟨d,d,uploaded⟩,
    txqs := fun q => match q with
      | .vif _ => w.txqs q
      | .sta i _ => if i = s then [] else w.txqs q}

def changeVlan (w : World) (s t : Nat) : World := {w with sta := update w.sta s {w.sta s with sdata := t}}

def cleanupTxq (s : Nat) (w : World) (tid : Nat) : World :=
  let n := (w.txqs (.sta s tid)).length
  (w.setTxq (.sta s tid) []).addLen (w.sta s).sdata (Txq.sta s tid).ac (-n)

def destroyStation (w : World) (s : Nat) : World :=
  let w := (List.range 16).foldl (cleanupTxq s) w
  {w with stations := w.stations.erase s}

def doStop (w : World) (d : Nat) : World :=
  let w := {w with subqueue := update w.subqueue d fun _ => true,reached := update w.reached d fun _ => false}
  let w := (w.stations.filter fun s => (w.sta s).sdata == d).foldl destroyStation w
  let w := w.setTxq (.vif d) []
  {w with txqsLen := update w.txqsLen d (update (w.txqsLen d) (Txq.vif d).ac 0)}

def doOpen (hw : Hw) (w : World) (d : Nat) : World :=
  let starts : Nat → Bool := fun ac =>
    match cfg.vifType d with
    | .monitor _ => true
    | .apVlan _ => true
    | .other =>
      decide (ac < cfg.nAcs) && ((cfg.cabQueue d).all fun cab => !hw.stopped cab && !hw.pending cab) &&
        !hw.stopped (cfg.hwQueue d ac) && !hw.pending (cfg.hwQueue d ac)
  {w with
    subqueue := update w.subqueue d fun ac => w.subqueue d ac && !starts ac,
    reached := update w.reached d fun ac => w.reached d ac && !starts ac}

def stopQueue (w : World) (queue : Nat) : World :=
  {w with subqueue := fun d ac => w.subqueue d ac ||
    cfg.interfaces.contains d && decide (ac < cfg.nAcs) && (cfg.hwQueue d ac == queue || cfg.cabQueue d == some queue)}

inductive Event where
  | tx (d : Nat) (monitorSdata s : Option Nat) (skb : Skb)
  | dequeue (q : Txq) (txqStop : Bool) (hw : Hw)
  | addStation (s d : Nat) (uploaded : Bool)
  | changeVlan (s t : Nat)
  | destroyStation (s : Nat)
  | ifStop (d : Nat)
  | ifOpen (d : Nat) (hw : Hw)
  | stopQueue (queue : Nat)
  | wakeQueue (queue : Nat) (hw : Hw)

def World.hasTxq (w : World) : Txq → Prop
  | .vif d => d ∈ cfg.interfaces
  | .sta s tid => s ∈ w.stations ∧ tid < 16

instance (w : World) (q : Txq) : Decidable (w.hasTxq cfg q) := by
  cases q <;> unfold World.hasTxq <;> infer_instance

def step (w : World) (e : Event) : World :=
  match e with
  | .tx d monitorSdata s skb =>
    if d ∈ cfg.interfaces ∧ (∀ m ∈ monitorSdata, m ∉ cfg.interfaces) ∧ (∀ i ∈ s, i ∈ w.stations) then tx cfg w d monitorSdata s skb else w
  | .dequeue q txqStop hw => if w.hasTxq cfg q then txDequeue cfg w q txqStop hw else w
  | .addStation s d uploaded => if s ∉ w.stations ∧ d ∈ cfg.interfaces then addStation w s d uploaded else w
  | .changeVlan s t => if s ∈ w.stations ∧ t ∈ cfg.interfaces then changeVlan w s t else w
  | .destroyStation s => if s ∈ w.stations then destroyStation w s else w
  | .ifStop d => if d ∈ cfg.interfaces then doStop w d else w
  | .ifOpen d hw => if d ∈ cfg.interfaces then doOpen cfg hw w d else w
  | .stopQueue queue => stopQueue cfg w queue
  | .wakeQueue queue hw => propagateQueueWake cfg hw w queue

def run (w : World) (events : List Event) : World := events.foldl (step cfg) w

def start : World where
  stations := []
  sta := fun _ => ⟨0,0,false⟩
  txqs := fun _ => []
  txqsLen := fun _ _ => 0
  subqueue := fun _ _ => true
  reached := fun _ _ => false
  fault := false

end txqs

-- That an interface was charged for on an AC.
def World.part (w : World) (d ac : Nat) (q : Txq) : Nat := if q.ac = ac then (w.txqs q).countP fun skb => skb.vif == d else 0

def World.queues (cfg : Config) (w : World) : List Txq :=
  cfg.interfaces.map Txq.vif ++ w.stations.flatMap fun s => (List.range 16).map (Txq.sta s)

def World.charged (cfg : Config) (w : World) (d ac : Nat) : Nat := ((w.queues cfg).map (w.part d ac)).sum

def World.held (w : World) (d ac s : Nat) : Int := total (fun tid => (w.part d ac (.sta s tid) : Int)) (List.range 16)

def World.size (w : World) (ac : Nat) (q : Txq) : Nat := if q.ac = ac then (w.txqs q).length else 0
def World.waiting (w : World) (ac s : Nat) : Nat := ((List.range 16).map fun tid => w.size ac (.sta s tid)).sum

def World.sound (cfg : Config) (w : World) : Prop :=
  ∀ d ac, w.txqsLen d ac = w.charged cfg d ac ∧ (w.charged cfg d ac = 0 → w.reached d ac = false)

structure World.kept (w : World) : Prop where
  distinct : w.stations.Nodup
  own : ∀ d, ∀ skb ∈ w.txqs (.vif d), skb.vif = d
  bits : ∀ d ac, w.reached d ac → w.subqueue d ac

section count
variable {w after : World}

theorem total_flatMap (f : β → Int) (g : α → List β) (entries : List α) :
    total f (entries.flatMap g) = total (fun a => total f (g a)) entries := by
  induction entries with
  | nil => rfl
  | cons a rest ih => rw [List.flatMap_cons,total_append,total_cons,ih]

theorem charged_eq (cfg : Config) (w : World) (d ac : Nat) :
    (w.charged cfg d ac : Int) = total (fun i => (w.part d ac (.vif i) : Int)) cfg.interfaces + total (w.held d ac) w.stations := by
  unfold World.charged World.queues
  rw [← total_natCast,total_append,total_map,total_flatMap]
  refine congrArg _ (total_congr fun s _ => ?_)
  exact total_map _ _ _

theorem setTxq_self (w : World) (q : Txq) (skbs : List Skb) : (w.setTxq q skbs).txqs q = skbs := update_self ..

theorem setTxq_other (w : World) (skbs : List Skb) (apart : other ≠ q) : (w.setTxq q skbs).txqs other = w.txqs other :=
  update_of_ne apart ..

theorem part_setTxq_same (w : World) (q : Txq) (skbs : List Skb) :
    (w.setTxq q skbs).part d ac q = if q.ac = ac then skbs.countP fun skb => skb.vif == d else 0 := by
  unfold World.part
  rw [setTxq_self]

theorem named_iff {q : Txq} {skb : Skb} (here : q.ac = ac) : (skb.vif == d) = true ↔ d = skb.vif ∧ ac = q.ac := by
  rw [beq_iff_eq]
  exact ⟨fun same => ⟨same.symm,here.symm⟩,fun both => both.1.symm⟩

theorem part_append (w : World) (q : Txq) (skb : Skb) :
    (w.setTxq q (w.txqs q ++ [skb])).part d ac q = w.part d ac q + if d = skb.vif ∧ ac = q.ac then 1 else 0 := by
  rw [part_setTxq_same]
  unfold World.part
  by_cases here : q.ac = ac
  · rw [if_pos here,if_pos here,List.countP_append,List.countP_singleton]
    exact congrArg _ (if_congr (named_iff here) rfl rfl)
  · rw [if_neg here,if_neg here,if_neg fun both => here both.2.symm]

theorem part_cons (first : w.txqs q = skb :: rest) :
    w.part d ac q = (w.setTxq q rest).part d ac q + if d = skb.vif ∧ ac = q.ac then 1 else 0 := by
  rw [part_setTxq_same]
  unfold World.part
  by_cases here : q.ac = ac
  · rw [if_pos here,if_pos here,first,List.countP_cons]
    exact congrArg _ (if_congr (named_iff here) rfl rfl)
  · rw [if_neg here,if_neg here,if_neg fun both => here both.2.symm]

theorem part_setTxq_other (w : World) (skbs : List Skb) (apart : other ≠ q) :
    (w.setTxq q skbs).part d ac other = w.part d ac other := by
  unfold World.part
  rw [setTxq_other w skbs apart]

theorem held_at (inside : q < 16) (skbs : List Skb) :
    (w.setTxq (.sta s q) skbs).held d ac s = w.held d ac s - w.part d ac (.sta s q) + (w.setTxq (.sta s q) skbs).part d ac (.sta s q) := by
  refine total_change List.nodup_range (List.mem_range.mpr inside) fun tid _ apart => ?_
  rw [part_setTxq_other]
  intro same
  exact apart (Txq.sta.inj same).2

theorem held_other (skbs : List Skb) (apart : ∀ tid, q ≠ .sta s tid) : (w.setTxq q skbs).held d ac s = w.held d ac s := by
  refine total_congr fun tid _ => ?_
  rw [part_setTxq_other]
  exact (apart tid).symm

theorem charged_setTxq (distinct : w.stations.Nodup) (inside : w.hasTxq cfg q) (skbs : List Skb) (d ac : Nat) :
    ((w.setTxq q skbs).charged cfg d ac : Int) = w.charged cfg d ac - w.part d ac q + (w.setTxq q skbs).part d ac q := by
  rw [charged_eq,charged_eq]
  rw [show (w.setTxq q skbs).stations = w.stations from rfl]
  cases q with
  | vif i =>
    have stations : total ((w.setTxq (.vif i) skbs).held d ac) w.stations = total (w.held d ac) w.stations :=
      total_congr fun s _ => held_other skbs fun tid same => by cases same
    have vifs : total (fun j => ((w.setTxq (.vif i) skbs).part d ac (.vif j) : Int)) cfg.interfaces =
        total (fun j => (w.part d ac (.vif j) : Int)) cfg.interfaces - w.part d ac (.vif i) +
          (w.setTxq (.vif i) skbs).part d ac (.vif i) := by
      refine total_change cfg.distinct inside fun j _ apart => ?_
      rw [part_setTxq_other]
      intro same
      exact apart (Txq.vif.inj same)
    omega
  | sta s tid =>
    have vifs : total (fun j => ((w.setTxq (.sta s tid) skbs).part d ac (.vif j) : Int)) cfg.interfaces =
        total (fun j => (w.part d ac (.vif j) : Int)) cfg.interfaces := by
      refine total_congr fun j _ => ?_
      rw [part_setTxq_other]
      intro same
      cases same
    have stations : total ((w.setTxq (.sta s tid) skbs).held d ac) w.stations =
        total (w.held d ac) w.stations - w.held d ac s + (w.setTxq (.sta s tid) skbs).held d ac s := by
      refine total_change distinct inside.1 fun i _ apart => held_other skbs fun other same => ?_
      exact apart (Txq.sta.inj same).1.symm
    rw [stations,vifs,held_at inside.2]
    omega

theorem charged_same (stations : after.stations = w.stations) (txqs : after.txqs = w.txqs) :
    after.charged cfg d ac = w.charged cfg d ac := by
  unfold World.charged World.queues World.part
  rw [stations,txqs]

theorem held_nonneg (w : World) (d ac s : Nat) : 0 ≤ w.held d ac s := total_nonneg fun _ _ => Int.natCast_nonneg _

theorem held_zero : w.held d ac s = 0 ↔ ∀ tid < 16, (Txq.sta s tid).ac = ac → ∀ skb ∈ w.txqs (.sta s tid), skb.vif ≠ d := by
  unfold World.held
  rw [total_eq_zero fun _ _ => Int.natCast_nonneg _]
  refine forall_congr' fun tid => ?_
  rw [List.mem_range]
  refine imp_congr_right fun _ => ?_
  unfold World.part
  split
  · rename_i here
    simp [here]
  · rename_i other
    exact ⟨fun _ same => absurd same other,fun _ => rfl⟩

def World.only (w : World) (s d : Nat) : Prop := ∀ tid < 16, ∀ skb ∈ w.txqs (.sta s tid), skb.vif = d

theorem only_held (only : w.only s d) (ac : Nat) : w.held d ac s = w.waiting ac s := by
  unfold World.held World.waiting
  rw [← total_natCast]
  refine total_congr fun tid inside => congrArg _ ?_
  unfold World.part World.size
  rw [List.countP_eq_length.mpr fun skb member => beq_iff_eq.mpr (only tid (List.mem_range.mp inside) skb member)]

theorem only_other (only : w.only s d) (apart : c ≠ d) (ac : Nat) : w.held c ac s = 0 :=
  held_zero.mpr fun tid inside _ skb member same => apart (same.symm.trans (only tid inside skb member))

theorem only_iff : w.only s d ↔ ∀ c, c ≠ d → ∀ ac, w.held c ac s = 0 := by
  refine ⟨fun only c apart ac => only_other only apart ac,fun none tid inside skb member => ?_⟩
  by_contra apart
  exact held_zero.mp (none skb.vif apart _) tid inside rfl skb member rfl

end count

end Mac80211.TxqsLen

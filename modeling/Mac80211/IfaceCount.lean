import Mathlib.Algebra.BigOperators.Group.Finset.Piecewise
import Mathlib.Algebra.Order.BigOperators.Group.Finset
import Mac80211.Iface

namespace Mac80211.Iface
open Finset

def MonitorFlags.filters (flags : MonitorFlags) (c : Counter) : Int :=
  match c with
  | .fifFcsfail => if flags.fcsFail then 1 else 0
  | .fifPlcpfail => if flags.plcpFail then 1 else 0
  | .fifControl => if flags.control then 1 else 0
  | .fifPspoll => if flags.control then 1 else 0
  | .fifOtherBss => if flags.otherBss then 1 else 0
  | _ => 0

def Sdata.counted (s : Sdata) (c : Counter) : Int :=
  match s.type with
  | .monitor => if s.mntrFlags.cookFrames then (if c = .cookedMntrs then 1 else 0) else (if c = .monitors then 1 else 0) + s.mntrFlags.filters c
  | .ap => (if c = .fifPspoll then 1 else 0) + if c = .fifProbeReq then 1 else 0
  | .adhoc => if c = .fifProbeReq then 1 else 0
  | _ => 0

def Sdata.contribution (s : Sdata) (c : Counter) : Int := s.counted c + if c = .openCount then 1 else 0

def Sdata.share (s : Sdata) (c : Counter) : Int := if s.running then s.contribution c else 0

-- What the counters should be: the shares of the interfaces that run.
def World.total (n : Nat) (w : World) (c : Counter) : Int := ∑ j ∈ range n, (w.sdata j).share c

def World.even (n : Nat) (w : World) : Prop := ∀ c, w.counts c = w.total n c

structure Alike (w after : World) : Prop where
  type : ∀ j, (after.sdata j).type = (w.sdata j).type
  mntrFlags : ∀ j, (after.sdata j).mntrFlags = (w.sdata j).mntrFlags
  running : ∀ j, (after.sdata j).running = (w.sdata j).running
  counts : after.counts = w.counts

section counts

theorem filters_nonneg (flags : MonitorFlags) (c : Counter) : 0 ≤ flags.filters c := by
  unfold MonitorFlags.filters
  split
  all_goals first | exact le_refl 0 | (split <;> decide)

theorem counted_nonneg (s : Sdata) (c : Counter) : 0 ≤ s.counted c := by
  unfold Sdata.counted
  split
  · split
    · split <;> decide
    · have filters := filters_nonneg s.mntrFlags c
      split <;> omega
  · split <;> split <;> decide
  · split <;> decide
  · exact le_refl 0

theorem total_nonneg (n : Nat) (w : World) (c : Counter) : 0 ≤ w.total n c := by
  refine Finset.sum_nonneg fun j _ => ?_
  have counted := counted_nonneg (w.sdata j) c
  unfold Sdata.share Sdata.contribution
  split
  · split <;> omega
  · exact le_refl 0

theorem setSdata_self (w : World) (i : Nat) (f : Sdata → Sdata) : (w.setSdata i f).sdata i = f (w.sdata i) := Function.update_self ..

theorem setSdata_other (w : World) (f : Sdata → Sdata) (other : j ≠ i) : (w.setSdata i f).sdata j = w.sdata j :=
  Function.update_of_ne other ..

theorem total_setSdata (w : World) (f : Sdata → Sdata) (inside : i < n) (c : Counter) :
    (w.setSdata i f).total n c = w.total n c + ((f (w.sdata i)).share c - (w.sdata i).share c) := by
  have each : ∀ j ∈ range n, ((w.setSdata i f).sdata j).share c =
      (w.sdata j).share c + if j = i then (f (w.sdata i)).share c - (w.sdata i).share c else 0 := by
    intro j _
    by_cases same : j = i
    · rw [same,setSdata_self,if_pos rfl]
      omega
    · rw [setSdata_other w f same,if_neg same,add_zero]
  unfold World.total
  rw [Finset.sum_congr rfl each,Finset.sum_add_distrib,Finset.sum_ite_eq',if_pos (mem_range.mpr inside)]

theorem counted_alike {s t : Sdata} (type : t.type = s.type) (flags : t.mntrFlags = s.mntrFlags) : t.counted = s.counted := by
  funext c
  unfold Sdata.counted
  rw [type,flags]

theorem Alike.share (alike : Alike w after) (j : Nat) (c : Counter) : (after.sdata j).share c = (w.sdata j).share c := by
  unfold Sdata.share Sdata.contribution
  rw [alike.running j,counted_alike (alike.type j) (alike.mntrFlags j)]

theorem Alike.total (alike : Alike w after) (c : Counter) : after.total n c = w.total n c := Finset.sum_congr rfl fun j _ => alike.share j c

theorem Alike.even (alike : Alike w after) (even : w.even n) : after.even n := by
  intro c
  rw [alike.counts,alike.total]
  exact even c

theorem Alike.trans (first : Alike w after) (second : Alike after last) : Alike w last :=
  ⟨fun j => (second.type j).trans (first.type j),fun j => (second.mntrFlags j).trans (first.mntrFlags j),
    fun j => (second.running j).trans (first.running j),second.counts.trans first.counts⟩

theorem Alike.refl (w : World) : Alike w w := ⟨fun _ => rfl,fun _ => rfl,fun _ => rfl,rfl⟩

theorem setSdata_alike (w : World) (i : Nat) (f : Sdata → Sdata)
    (keeps : (f (w.sdata i)).type = (w.sdata i).type ∧ (f (w.sdata i)).mntrFlags = (w.sdata i).mntrFlags ∧ (f (w.sdata i)).running = (w.sdata i).running) :
    Alike w (w.setSdata i f) := by
  have each : ∀ j, (w.setSdata i f).sdata j = (if j = i then f (w.sdata i) else w.sdata j) := by
    intro j
    by_cases same : j = i
    · rw [same,setSdata_self,if_pos rfl]
    · rw [setSdata_other w f same,if_neg same]
  refine ⟨fun j => ?_,fun j => ?_,fun j => ?_,rfl⟩
  all_goals
    rw [each]
    split
    · rename_i same
      rw [same]
      first | exact keeps.1 | exact keeps.2.1 | exact keeps.2.2
    · rfl

theorem adjust_flag (w : World) (flag : Bool) (own c : Counter) (offset : Int) :
    (if flag then w.adjust own offset else w).counts c = w.counts c + if c = own then offset * (if flag then 1 else 0) else 0 := by
  unfold World.adjust
  cases flag with
  | false =>
    simp
  | true =>
    simp

theorem adjustMonitorFlags_counts (w : World) (flags : MonitorFlags) (offset : Int) (c : Counter) :
    (adjustMonitorFlags w flags offset).counts c = w.counts c + offset * flags.filters c := by
  unfold adjustMonitorFlags
  rw [adjust_flag,adjust_flag,adjust_flag,adjust_flag,adjust_flag]
  cases c <;> simp [MonitorFlags.filters]

theorem adjustMonitorFlags_sdata (w : World) (flags : MonitorFlags) (offset : Int) : (adjustMonitorFlags w flags offset).sdata = w.sdata := by
  have flagged : ∀ (w : World) (flag : Bool) (c : Counter), (if flag then w.adjust c offset else w).sdata = w.sdata := by
    intro w flag c
    cases flag with
    | false => rfl
    | true => rfl
  unfold adjustMonitorFlags
  rw [flagged,flagged,flagged,flagged,flagged]

end counts

end Mac80211.Iface

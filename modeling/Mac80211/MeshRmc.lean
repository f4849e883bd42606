import Mac80211.SkBuff
import Mac80211.RxReorder

namespace Mac80211.Rmc
open RxReorder (Jiffies timeAfter)

def rmcBuckets : Nat := 256
def rmcQueueMaxLen : Nat := 4
def rmcTimeout (hz : UInt16) : Jiffies := 3 * hz.toUInt64

structure RmcEntry where
  seqnum : UInt32
  expTime : Jiffies
  sa : EthAddr
deriving DecidableEq

abbrev MeshRmc := Nat → List RmcEntry

def meshRmcInit : MeshRmc := fun _ => []

def index (seqnum : UInt32) : Nat := seqnum.toNat % rmcBuckets

def RmcEntry.is (p : RmcEntry) (sa : EthAddr) (seqnum : UInt32) : Bool := seqnum == p.seqnum && sa == p.sa

-- With the number of the entries that it has left so far.
def walk (now : Jiffies) (sa : EthAddr) (seqnum : UInt32) : Nat → List RmcEntry → List RmcEntry × Bool
  | _,[] => ([],false)
  | entries,p :: rest =>
    if timeAfter now p.expTime || entries + 1 == rmcQueueMaxLen then walk now sa seqnum entries rest
    else if p.is sa seqnum then (p :: rest,true)
    else
      let out := walk now sa seqnum (entries + 1) rest
      (p :: out.1,out.2)

def meshRmcCheck (hz : UInt16) (now : Jiffies) (alloc : Bool) (sa : EthAddr) (seqnum : UInt32) (rmc : MeshRmc) : MeshRmc × Int :=
  let out := walk now sa seqnum 0 (rmc (index seqnum))
  if out.2 then (Function.update rmc (index seqnum) out.1,-1)
  else if !alloc then (Function.update rmc (index seqnum) out.1,0)
  else (Function.update rmc (index seqnum) (⟨seqnum,now + rmcTimeout hz,sa⟩ :: out.1),0)

inductive Reach (hz : UInt16) : MeshRmc → Prop where
  | init : Reach hz meshRmcInit
  | check (prior : Reach hz rmc) (now : Jiffies) (alloc : Bool) (sa : EthAddr) (seqnum : UInt32) :
      Reach hz (meshRmcCheck hz now alloc sa seqnum rmc).1

section walk

def fresh (now : Jiffies) (bucket : List RmcEntry) : List RmcEntry := bucket.filter fun p => !timeAfter now p.expTime

def compared (now : Jiffies) (bucket : List RmcEntry) : List RmcEntry := (fresh now bucket).take (rmcQueueMaxLen - 1)

theorem walk_full (now : Jiffies) (sa : EthAddr) (seqnum : UInt32) (bucket : List RmcEntry) :
    walk now sa seqnum (rmcQueueMaxLen - 1) bucket = ([],false) := by
  induction bucket with
  | nil => rfl
  | cons p rest ih =>
    unfold walk
    rw [if_pos (by simp [rmcQueueMaxLen]),ih]

theorem walk_cases (now : Jiffies) (sa : EthAddr) (seqnum : UInt32) (small : entries < rmcQueueMaxLen) (bucket : List RmcEntry) :
    let seen := (fresh now bucket).take (rmcQueueMaxLen - 1 - entries)
    (walk now sa seqnum entries bucket).2 = seen.any (fun p => p.is sa seqnum) ∧
      ((walk now sa seqnum entries bucket).2 = false → (walk now sa seqnum entries bucket).1 = seen) := by
  induction bucket generalizing entries with
  | nil => simp [walk,fresh]
  | cons p rest ih =>
    by_cases full : entries + 1 = rmcQueueMaxLen
    · have last : entries = rmcQueueMaxLen - 1 := by omega
      rw [last,walk_full]
      simp
    have room : rmcQueueMaxLen - 1 - entries = (rmcQueueMaxLen - 1 - (entries + 1)) + 1 := by omega
    cases expired : timeAfter now p.expTime with
    | true => simpa [walk,fresh,expired] using ih small
    | false =>
      have kept : fresh now (p :: rest) = p :: fresh now rest := by simp [fresh,expired]
      cases same : p.is sa seqnum with
      | true => simp [walk,expired,full,same,kept,room]
      | false =>
        have later := ih (show entries + 1 < rmcQueueMaxLen by omega)
        simpa [walk,expired,full,same,kept,room] using later

theorem walk_sublist (now : Jiffies) (sa : EthAddr) (seqnum : UInt32) (entries : Nat) (bucket : List RmcEntry) :
    (walk now sa seqnum entries bucket).1.Sublist bucket := by
  induction bucket generalizing entries with
  | nil => exact List.Sublist.refl []
  | cons p rest ih =>
    unfold walk
    split
    · exact (ih entries).cons p
    · split
      · exact List.Sublist.refl _
      · exact (ih (entries + 1)).cons_cons p

end walk

structure Bounded (i : Nat) (bucket : List RmcEntry) : Prop where
  length : bucket.length ≤ rmcQueueMaxLen
  distinct : (bucket.map fun p => (p.sa,p.seqnum)).Nodup
  placed : ∀ p ∈ bucket, index p.seqnum = i

theorem is_iff {p : RmcEntry} : p.is sa seqnum = true ↔ p.sa = sa ∧ p.seqnum = seqnum := by
  simp only [RmcEntry.is,Bool.and_eq_true,beq_iff_eq]
  constructor
  · rintro ⟨number,source⟩
    exact ⟨source.symm,number.symm⟩
  · rintro ⟨source,number⟩
    exact ⟨number.symm,source.symm⟩

theorem Bounded.sublist (bounded : Bounded i bucket) (sublist : left.Sublist bucket) : Bounded i left := by
  constructor
  · exact Nat.le_trans sublist.length_le bounded.length
  · exact bounded.distinct.sublist (sublist.map _)
  · exact fun p member => bounded.placed p (sublist.subset member)

theorem bounded_set (bounded : ∀ i, Bounded i (rmc i)) (set : Bounded i bucket) (j : Nat) : Bounded j (Function.update rmc i bucket j) := by
  by_cases here : j = i
  · subst here
    simpa only [Function.update_self] using set
  · rw [Function.update_of_ne here]
    exact bounded j

theorem bounded_add (bounded : Bounded (index seqnum) bucket) (expTime : Jiffies)
    (missing : (walk now sa seqnum 0 bucket).2 = false) :
    Bounded (index seqnum) (⟨seqnum,expTime,sa⟩ :: (walk now sa seqnum 0 bucket).1) := by
  have kept := bounded.sublist (walk_sublist now sa seqnum 0 bucket)
  obtain ⟨seen,left⟩ := walk_cases now sa seqnum (show 0 < rmcQueueMaxLen by decide) bucket
  rw [left missing] at kept ⊢
  rw [missing] at seen
  constructor
  · have few := List.length_take_le (rmcQueueMaxLen - 1 - 0) (fresh now bucket)
    exact Nat.succ_le_succ few
  · refine List.nodup_cons.mpr ⟨?_,kept.distinct⟩
    intro member
    obtain ⟨p,held,same⟩ := List.mem_map.mp member
    obtain ⟨source,number⟩ := Prod.mk.inj same
    exact absurd (is_iff.mpr ⟨source,number⟩) (List.any_eq_false.mp seen.symm p held)
  · intro p member
    rcases List.mem_cons.mp member with new | old
    · rw [new]
    · exact kept.placed p old

theorem check_bounded (bounded : ∀ i, Bounded i (rmc i)) (hz : UInt16) (now : Jiffies) (alloc : Bool) (sa : EthAddr) (seqnum : UInt32)
    (i : Nat) : Bounded i ((meshRmcCheck hz now alloc sa seqnum rmc).1 i) := by
  have kept := (bounded (index seqnum)).sublist (walk_sublist now sa seqnum 0 (rmc (index seqnum)))
  unfold meshRmcCheck
  dsimp only
  split
  · exact bounded_set bounded kept i
  · rename_i missing
    split
    · exact bounded_set bounded kept i
    · exact bounded_set bounded (bounded_add (bounded _) _ (Bool.eq_false_of_not_eq_true missing)) i

theorem reach_bounded (reach : Reach hz rmc) (i : Nat) : Bounded i (rmc i) := by
  induction reach generalizing i with
  | init => exact ⟨Nat.zero_le _,List.nodup_nil,nofun⟩
  | check prior now alloc sa seqnum ih => exact check_bounded ih hz now alloc sa seqnum i

theorem check_found (hz : UInt16) (now : Jiffies) (alloc : Bool) (sa : EthAddr) (seqnum : UInt32) (rmc : MeshRmc) :
    (meshRmcCheck hz now alloc sa seqnum rmc).2 ≠ 0 ↔ ∃ p ∈ compared now (rmc (index seqnum)), p.is sa seqnum = true := by
  obtain ⟨seen,-⟩ := walk_cases now sa seqnum (show 0 < rmcQueueMaxLen by decide) (rmc (index seqnum))
  rw [← List.any_eq_true]
  change _ ↔ List.any (List.take (rmcQueueMaxLen - 1 - 0) (fresh now (rmc (index seqnum)))) _ = true
  rw [← seen]
  unfold meshRmcCheck
  dsimp only
  split
  · rename_i found
    exact iff_of_true (show (-1 : Int) ≠ 0 by decide) found
  · rename_i missing
    split <;> exact iff_of_false (not_not.mpr rfl) missing

theorem rmc_check (reach : Reach hz rmc) :
    (∀ i, (rmc i).length ≤ rmcQueueMaxLen ∧ ((rmc i).map fun p => (p.sa,p.seqnum)).Nodup) ∧
    ∀ now alloc i, ∀ p ∈ rmc i, (meshRmcCheck hz now alloc p.sa p.seqnum rmc).2 ≠ 0 ↔ p ∈ compared now (rmc i) := by
  have bounded := reach_bounded reach
  refine ⟨fun i => ⟨(bounded i).length,(bounded i).distinct⟩,?_⟩
  intro _ _ i p member
  rw [check_found,(bounded i).placed p member]
  constructor
  · rintro ⟨q,seen,same⟩
    have held : q ∈ rmc i := List.mem_of_mem_filter (List.mem_of_mem_take seen)
    obtain ⟨source,number⟩ := is_iff.mp same
    have equal : q = p := List.inj_on_of_nodup_map (bounded i).distinct held member (by rw [source,number])
    rwa [equal] at seen
  · intro seen
    exact ⟨p,seen,is_iff.mpr ⟨rfl,rfl⟩⟩

def sampleCheck (sender : UInt8) (rmc : MeshRmc) : MeshRmc × Int := meshRmcCheck 100 0 true (macAddr 2 0 0 0 0 sender) 7 rmc

def sampleCache : Nat → MeshRmc
  | 0 => meshRmcInit
  | senders + 1 => (sampleCheck (UInt8.ofNat (senders + 1)) (sampleCache senders)).1

theorem sample_reach (senders : Nat) : Reach 100 (sampleCache senders) := by
  induction senders with
  | zero => exact .init
  | succ senders ih => exact ih.check 0 true _ 7

theorem rmc_check_sample : (sampleCache 3 7).length = 3 ∧ (sampleCheck 1 (sampleCache 3)).2 ≠ 0 := by
  have checks := (rmc_check (sample_reach 3)).2 0 true 7 ⟨7,300,macAddr 2 0 0 0 0 1⟩ (by decide)
  exact ⟨by decide,checks.mpr (by decide)⟩

theorem rmc_missed :
    ¬ ∀ (hz : UInt16) (rmc : MeshRmc), Reach hz rmc → ∀ (now : Jiffies) (alloc : Bool) (i : Nat), ∀ p ∈ rmc i,
      timeAfter now p.expTime = false → (meshRmcCheck hz now alloc p.sa p.seqnum rmc).2 ≠ 0 := by
  intro all
  have reported := all 100 (sampleCache 4) (sample_reach 4) 0 true 7 ⟨7,300,macAddr 2 0 0 0 0 1⟩ (by decide) (by decide)
  exact absurd reported (by decide)

end Mac80211.Rmc

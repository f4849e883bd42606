import Mac80211.RxReorderSlots

namespace Mac80211.RxReorder
open Loops
open Function (update update_of_ne update_self)

variable {frames : List (Mpdu α)}

def Plain : Event α → Prop
  | .mpdu _ skb => skb.amsduMore = false
  | _ => True

-- Without more parts to come, each slot holds the one frame of its number.
structure Single (s : TidAmpduRx α) : Prop where
  one : ∀ i, (s.reorderBuf i).length ≤ 1
  whole : ∀ i, ∀ f ∈ s.reorderBuf i, f.amsduMore = false

theorem ready_single (single : Single s) (i : Nat) : rxReorderReady (s.reorderBuf i) = false ↔ s.reorderBuf i = [] := by
  constructor
  · intro unready
    cases slot : s.reorderBuf i with
    | nil => rfl
    | cons f rest =>
      have one := single.one i
      have whole := single.whole i f (slot ▸ List.mem_cons_self)
      rw [slot] at one unready
      cases rest with
      | nil => simp [rxReorderReady,whole] at unready
      | cons => simp at one
  · intro empty
    rw [empty]
    rfl

theorem single_empty (counted : Counted s) (single : Single s) (none_left : s.storedMpduNum = 0) (inside : i < s.bufSize) :
    s.reorderBuf i = [] := by
  rw [← ready_single single]
  rw [counted.count,Finset.card_eq_zero] at none_left
  cases ready : rxReorderReady (s.reorderBuf i) with
  | false => rfl
  | true => exact absurd (none_left ▸ mem_readySlots.mpr ⟨inside,ready⟩) (Finset.notMem_empty i)

theorem single_fresh (single : Single s) (hz : UInt16) (jiffies : Jiffies) (start upto : Nat) :
    ¬DueBehind hz jiffies s start upto := by
  rintro ⟨filled,unready,_⟩
  exact filled ((ready_single single _).mp unready)

theorem pickStart_single (single : Single s) (sn : Nat) : Single (pickStart sn s) := by
  obtain ⟨_,buf,_⟩ := pickStart_frame sn s
  exact ⟨fun i => buf ▸ single.one i,fun i => buf ▸ single.whole i⟩

theorem plain_tidy (counted : Counted s) (timed : Timed s) (single : Single s) (hz : UInt16) (plain : Plain e) :
    Tidy hz e s := by
  cases e with
  | mpdu jiffies skb =>
    obtain ⟨picked,_,_⟩ := pickStart_counted counted timed skb
    have alone := pickStart_single single skb.seqNum
    refine ⟨fun part => (nomatch (plain.symm.trans part : false = true)),fun _ => ⟨?_,fun _ => single_fresh alone _ _ _ _⟩⟩
    intro _ none_left
    exact single_empty picked alone none_left (Nat.mod_lt _ picked.positive)
  | bar => trivial
  | timeout => exact single_fresh single _ _ _ _
  | stop => trivial

theorem advance_single (single : Single w.1) (n : Nat) : Single (advance n w).1 := by
  induction n with
  | zero => exact single
  | succ n ih =>
    rw [advance_succ]
    have buf := release_buf ((advance n w).1.headSeqNum % (advance n w).1.bufSize) (advance n w)
    constructor
    · intro i
      show ((releaseReorderFrame _ _).1.reorderBuf i).length ≤ 1
      rw [buf]
      by_cases same : i = (advance n w).1.headSeqNum % (advance n w).1.bufSize
      · rw [same,update_self]
        exact Nat.zero_le _
      · rw [update_of_ne same]
        exact ih.one i
    · intro i
      show ∀ f ∈ (releaseReorderFrame _ _).1.reorderBuf i,_
      rw [buf]
      by_cases same : i = (advance n w).1.headSeqNum % (advance n w).1.bufSize
      · rw [same,update_self]
        exact fun f held => nomatch held
      · rw [update_of_ne same]
        exact ih.whole i

theorem queueTail_single (single : Single s) (unready : rxReorderReady (s.reorderBuf index) = false) (skb : Mpdu α)
    (whole : skb.amsduMore = false) : Single (s.queueTail index skb) := by
  have empty := (ready_single single index).mp unready
  constructor
  · intro i
    show (update s.reorderBuf index _ i).length ≤ 1
    by_cases same : i = index
    · rw [same,update_self,empty]
      exact Nat.le_refl _
    · rw [update_of_ne same]
      exact single.one i
  · intro i
    show ∀ f ∈ update s.reorderBuf index _ i,_
    by_cases same : i = index
    · rw [same,update_self,empty]
      intro f held
      rwa [List.mem_singleton.mp held]
    · rw [update_of_ne same]
      exact single.whole i

structure Steady (s : TidAmpduRx α) : Prop extends Settled s where
  divides : s.bufSize ∣ 4096
  single : Single s

theorem Steady.fired (steady : Steady s) : Counted {s with reorderTimer := none} :=
  ⟨steady.counted.positive,steady.counted.small,steady.counted.head,steady.counted.count⟩

theorem step_steady {u : Work α} (steady : Steady s) (plain : Plain e) (fuelled : enough ≤ fuel)
    (ran : step fuel hz e s = some u) : Steady u.1 ∧ u.1.bufSize = s.bufSize := by
  have tidy := plain_tidy steady.counted steady.timed steady.single hz plain
  obtain ⟨settled,size⟩ := step_settled steady.toSettled steady.divides tidy fuelled ran
  refine ⟨⟨settled,size ▸ steady.divides,?_⟩,size⟩
  cases e with
  | mpdu jiffies skb =>
    obtain ⟨r,managed,rfl⟩ := Option.map_eq_some_iff.mp ran
    obtain ⟨start,d,w,chosen,_,room,cases⟩ := mpdu_cases steady.counted steady.timed steady.divides tidy fuelled managed
    have picked : Single start := chosen ▸ pickStart_single steady.single skb.seqNum
    have moved : Single w.1 := room ▸ advance_single (w := (start,[])) picked _
    rcases cases with ⟨_,rfl⟩ | ⟨_,⟨_,rfl⟩ | ⟨unready,⟨_,rfl⟩ | ⟨_,⟨part,_⟩ | ⟨whole,k,_,_,rfl⟩⟩⟩⟩
    · exact picked
    · exact moved
    · cases more : skb.amsduMore with
      | true => exact moved
      | false => exact ⟨moved.one,moved.whole⟩
    · exact nomatch (plain.symm.trans part : false = true)
    · have queued := queueTail_single moved unready skb whole
      subst room
      have held : Single (stored (roomFor start.bufSize d) jiffies skb (start,[])) := ⟨queued.one,queued.whole⟩
      have released := advance_single (w := (_,(advance (roomFor start.bufSize d) (start,([] : List (Mpdu α)))).2)) held k
      exact ⟨released.one,released.whole⟩
  | bar =>
    have moved := releaseReorderFrames_advance (w := (s,[])) steady.counted.head ran
    rw [moved]
    exact advance_single (w := (s,[])) steady.single _
  | timeout =>
    obtain ⟨n,_,_,_,rfl⟩ := staReorderRelease_advance (w := ({s with reorderTimer := none},[])) steady.fired steady.divides
      tidy fuelled ran
    have released := advance_single (w := ({s with reorderTimer := none},[])) ⟨steady.single.one,steady.single.whole⟩ n
    exact ⟨released.one,released.whole⟩
  | stop =>
    cases ran
    exact ⟨steady.single.one,steady.single.whole⟩

theorem start_steady
    (started : startRxBaSession hw req memory = some s) (divides : s.bufSize ∣ 4096) : Steady s := by
  obtain ⟨_,_,empty,_⟩ := start_cases started
  refine ⟨start_settled started,divides,?_,?_⟩
  · intro i
    rw [empty]
    exact Nat.zero_le _
  · intro i f held
    rw [empty] at held
    cases held

end Mac80211.RxReorder

import Mac80211.MncDecodeSafe
import Mac80211.MncRelay

namespace Mac80211.MncRx
open Gf Loops Guarded LinearSystems LinkedList LuFac

structure Call where
  skbs : List Skb
  kp : UInt8
  kernel : Kernel

-- For a queue the packet has made full, if one of its packets is coded.
def decodingCall (jiffies : UInt64) (skb : Skb) (s : State) : Option Call :=
  match enqueue jiffies skb s with
  | some (.queued mncq t) =>
    (t.list.nodes mncq).bind fun n =>
      if n.val.skbs.length = (skb.byte 0 >>> 2).toNat ∧ n.val.sys = false then some ⟨n.val.skbs,skb.byte 0,t.kernel⟩
      else none
  | _ => none

def Arrival.call (e : Arrival) (s : State) : Option Call :=
  if ethertype e.skb = 0x0810 then
    decodingCall e.jiffies (stripEthertype {e.skb with id := s.kernel.nextSkb})
      {s with kernel := {s.kernel with nextSkb := s.kernel.nextSkb + 1}}
  else none

-- Three header bytes, and a length that is an unsigned int.
def Headed (s : Skb) : Prop := 3 ≤ s.len ∧ s.len < 2 ^ 32

def Arrival.Headed (e : Arrival) : Prop := ethertype e.skb = 0x0810 → MncRx.Headed e.skb

inductive Heard (random : Nat → UInt8) : State → Prop where
  | start : Heard random (initial random)
  | step (prior : Heard random s) (headed : e.Headed) (ran : receive e s = some t) : Heard random t

theorem heard_headed (run : Heard random s) : ∃ a, Represents s a ∧ Each Headed a := by
  induction run with
  | start => exact ⟨_,initial_represents random,fun q none_yet => (nomatch none_yet)⟩
  | @step s e t prior headed ran ih =>
    obtain ⟨a,represents,each⟩ := ih
    obtain ⟨b,receives,after⟩ := receive_receives represents ran
    refine ⟨b,after,?_⟩
    cases receives with
    | other | control => exact each
    | mnc skb buffer kind takes =>
      subst buffer
      have new : Headed (stripEthertype {e.skb with id := a.kernel.nextSkb}) := headed kind
      exact takes_each (a := {a with kernel := {a.kernel with nextSkb := a.kernel.nextSkb + 1}}) (fun s buffer known => known) each new takes

theorem queued_nonempty (queued : queuePacket skb q kernel = (filled,after)) : 0 < filled.skbs.length := by
  obtain ⟨_,_,rfl⟩ := queuePacket_adds queued
  simp

theorem call_packets {e : Arrival} (run : Heard random s) (headed : e.Headed) (called : e.call s = some c) :
    c.skbs.length = kOf c.kp ∧ 0 < kOf c.kp ∧ ∀ t ∈ c.skbs, Headed t := by
  obtain ⟨a,represents,each⟩ := heard_headed run
  obtain ⟨kind,called⟩ := Option.ite_none_right_eq_some.mp called
  have ready : Represents {s with kernel := {s.kernel with nextSkb := s.kernel.nextSkb + 1}}
      {a with kernel := {s.kernel with nextSkb := s.kernel.nextSkb + 1}} :=
    ⟨represents.cells,represents.lastDid,rfl⟩
  obtain ⟨_,admission,outcome⟩ := admit_returns ready e.jiffies (stripEthertype {e.skb with id := s.kernel.nextSkb})
  unfold decodingCall at called
  rw [admission] at called
  cases outcome with
  | closed | wrongKp => cases called
  | queued accepts linked =>
    obtain ⟨n,here,rfl,_⟩ := linked.node
    simp only [here,Option.bind_some] at called
    obtain ⟨⟨full,_⟩,result⟩ := Option.ite_none_right_eq_some.mp called
    cases result
    have new : Headed (stripEthertype {e.skb with id := s.kernel.nextSkb}) := headed kind
    have known : ∀ t ∈ n.val.skbs, Headed t :=
      (accepts_each (a := {a with kernel := {s.kernel with nextSkb := s.kernel.nextSkb + 1}}) (fun s buffer known => known)
        each new accepts).1
    exact ⟨full,Nat.lt_of_lt_of_eq (queued_nonempty accepts.queued) full,known⟩

theorem decoder_in_bounds {e : Arrival} {c : Call} (run : Heard random s) (headed : e.Headed) (called : e.call s = some c) :
    (∀ fuel, skbsDecodingRun true fuel c.skbs c.kp c.kernel ≠ .fault) ↔ InBounds (kOf c.kp) (pOf c.kp) c.skbs := by
  obtain ⟨count,nonempty,long⟩ := call_packets run headed called
  constructor
  · intro safe
    exact ⟨faultless_indices count long c.kernel safe,
      fun distinct positive s member coded => faultless_headers count nonempty long c.kernel safe distinct positive member coded,
      faultless_payloads count nonempty long c.kernel safe⟩
  · intro ok fuel
    exact Run.safe_faultless (decoding_safe count nonempty long ok c.kernel fuel)

namespace CallSample

def whole : Arrival := sampleFrame [0x05,7,0xfc,1,9]

def short : Arrival := sampleFrame [0x05,7,0xfc]

def callOf (e : Arrival) : Call := (e.call sampleStart).getD ⟨[],0,sampleStart.kernel⟩

theorem whole_coded : ∀ s ∈ (callOf whole).skbs, mindex s = 0x3f := by decide

theorem whole_payload : ∀ s ∈ (callOf whole).skbs, payload 1 1 (firstSlot (callOf whole).skbs) ≤ payload 1 1 s := by decide

end CallSample

open CallSample in
theorem decoder_in_bounds_sample : whole.call sampleStart = some (callOf whole) ∧
    ∀ fuel, skbsDecodingRun true fuel (callOf whole).skbs (callOf whole).kp (callOf whole).kernel ≠ .fault := by
  have called : whole.call sampleStart = some (callOf whole) := rfl
  refine ⟨called,(decoder_in_bounds .start (fun _ => ⟨by decide,by decide⟩) called).mpr ⟨?_,?_,?_⟩⟩
  · exact fun n inside _ => .inr (whole_coded _ (List.getElem_mem inside))
  · intro _ _
    decide
  · exact fun _ _ _ => ⟨Nat.one_dvd _,whole_payload⟩

-- A packet without its coefficient is read beyond its end.
open CallSample in
theorem decoder_out_of_bounds : short.Headed ∧ short.call sampleStart = some (callOf short) ∧
    ¬∀ fuel, skbsDecodingRun true fuel (callOf short).skbs (callOf short).kp (callOf short).kernel ≠ .fault := by
  refine ⟨fun _ => ⟨by decide,by decide⟩,rfl,fun safe => ?_⟩
  have long : ∀ s ∈ (callOf short).skbs, 3 ≤ s.len ∧ s.len < 2 ^ 32 := by decide
  have member : (callOf short).skbs.head (by decide) ∈ (callOf short).skbs := List.head_mem _
  have enough := faultless_headers rfl (by decide) long (callOf short).kernel safe (by decide) (by decide) member (by decide)
  exact absurd enough (by decide)

def decodedLen (k p : Nat) (pkts : List Skb) : Nat := subU32 (firstSlot pkts).len (headOf k p (firstSlot pkts))

-- The step of the loop over the payload is 0, or goes over the end and around.
structure Stuck (k p : Nat) (pkts : List Skb) : Prop where
  generates : Generates k pkts
  distinct : Distinct pkts
  loops : p = 0 ∧ decodedLen k p pkts ≠ 0 ∨ p = 2 ∧ Regular k p pkts ∧ decodedLen k p pkts = 2 ^ 32 - 1

theorem mindex_small (s : Skb) : mindex s < 64 := by
  have low := (s.byte 2).toNat_lt
  rw [mindex,UInt8.toNat_shiftRight,Nat.shiftRight_eq_div_pow]
  have : (2 : UInt8).toNat % 8 = 2 := rfl
  rw [this]
  omega

theorem placeSystematic_wider (placed : placeSystematic k s = .ok t) (K : Nat) : placeSystematic K s = .ok t := by
  unfold placeSystematic at placed ⊢
  split at placed
  · cases placed
  split at placed
  · rename_i systematic
    rw [if_pos systematic]
    split at placed
    · cases placed
    · rename_i free
      rw [if_neg free]
      exact placed
  · rename_i coded
    rw [if_neg coded]
    exact placed

theorem occupied_beyond (bound : k ≤ K) (inside : m < K) (outside : k ≤ m) (here : skb m = some t) :
    (occupied k skb).length < (occupied K skb).length := by
  obtain ⟨more,rfl⟩ := Nat.exists_eq_add_of_le bound
  unfold occupied
  rw [List.range_add,List.filterMap_append,List.length_append]
  have member : t ∈ ((List.range more).map (k + ·)).filterMap skb :=
    List.mem_filterMap.mpr ⟨m,List.mem_map.mpr ⟨m - k,List.mem_range.mpr (by omega),by omega⟩,here⟩
  have some_more := List.length_pos_of_mem member
  omega

theorem full_generates (count : pkts.length = k) (bound : k ≤ 64)
    (ran : forTry 0 k (fun _ => placeSystematic k) (emptySlots pkts) = .ok s)
    (full : ∀ i < k, ∃ t, (forRange 0 k fillCoded s).skb i = some t) : Generates k pkts := by
  have placed : Placed 64 pkts k s := by
    have loop : (∀ s, forTry 0 k (fun _ => placeSystematic k) (emptySlots pkts) = .ok s → Placed 64 pkts k s) ∧
        ∀ e, forTry 0 k (fun _ => placeSystematic k) (emptySlots pkts) = .error e → True := by
      refine forTry_rule (fun n s => Placed 64 pkts n s) (fun _ => True) (Nat.zero_le k) (empty_placed 64 pkts) ?_
      intro n s _ small placed
      refine ⟨fun t next => ?_,fun _ _ => trivial⟩
      exact (placed_next (by omega) (.inl (mindex_small _)) placed).1 t (placeSystematic_wider next 64)
    exact loop.1 s ran
  refine ⟨count,fun x member => ?_⟩
  by_contra wrong
  rw [not_or] at wrong
  have skbs := placed.skbs
  have slots := placed.slots
  rw [List.take_of_length_le (by omega)] at skbs slots
  rw [List.drop_of_length_le (by omega),List.nil_append] at skbs
  have other : x ∈ pkts.filter fun t => !isCoded t := List.mem_filter.mpr ⟨member,by simp [isCoded,wrong.2]⟩
  obtain ⟨m,_,here⟩ := List.mem_filterMap.mp (slots.mem_iff.mpr other)
  have place := (placed.owned m x here).1
  have fewer := occupied_beyond (k := k) (K := 64) bound (placed.owned m x here).2 (by omega) here
  have parts := (split_coded pkts).length_eq
  rw [List.length_append,count,← skbs,← slots.length_eq] at parts
  -- Each round of the second loop fills at most one slot, from the queue.
  have rounds : (∀ m, (forRange 0 k fillCoded s).isSys m = s.isSys m) ∧
      (∀ m, s.isSys m = false → k ≤ m → (forRange 0 k fillCoded s).skb m = none) ∧
      (occupied k (forRange 0 k fillCoded s).skb).length + (forRange 0 k fillCoded s).skbs.length ≤
        (occupied k s.skb).length + s.skbs.length := by
    refine forRange_rule (fun n (t : Slots) => (∀ m, t.isSys m = s.isSys m) ∧
      (∀ m, s.isSys m = false → n ≤ m → t.skb m = none) ∧
      (occupied k t.skb).length + t.skbs.length ≤ (occupied k s.skb).length + s.skbs.length) (Nat.zero_le k) ?_ ?_
    · refine ⟨fun _ => rfl,fun m free _ => ?_,Nat.le_refl _⟩
      rw [placed.isSys] at free
      simpa using free
    rintro n t _ small ⟨marks,free,total⟩
    unfold fillCoded
    split
    · exact ⟨marks,fun m open_slot bound => free m open_slot (by omega),total⟩
    rename_i not_sys
    have empty := free n (by rw [← marks]; simpa using not_sys) (Nat.le_refl n)
    refine ⟨marks,fun m open_slot bound => ?_,?_⟩
    · dsimp only
      rw [Function.update_of_ne (by omega)]
      exact free m open_slot (by omega)
    cases queue : t.skbs with
    | nil =>
      rw [queue] at total
      simp only [List.head?_nil,List.tail_nil]
      rw [← empty,Function.update_eq_self]
      exact total
    | cons first =>
      have grown := (occupied_fill small empty first).length_eq
      rw [queue] at total
      simp only [List.head?_cons,List.tail_cons,List.length_cons] at total grown ⊢
      omega
  have all : (occupied k (forRange 0 k fillCoded s).skb).length = k := by
    have whole : ∀ m < k, (forRange 0 k fillCoded s).skb m = some ((forRange 0 k fillCoded s).packet m) := by
      intro m small
      obtain ⟨t,here⟩ := full m small
      rw [Slots.packet,here,Option.getD_some]
    rw [occupied_full whole,List.length_map,List.length_range]
  omega

theorem generates_indexed (generates : Generates k pkts) : Indexed k pkts :=
  fun _ inside _ => generates.index _ (List.getElem_mem inside)

theorem regular_zero (k : Nat) (pkts : List Skb) : Regular k 0 pkts := by
  have empty : IsEmpty (Fin (k * 0)) := ⟨fun i => absurd i.isLt (by simp)⟩
  rw [Regular,Matrix.det_isEmpty]
  exact one_ne_zero

theorem blockRun_lenient (below : ∀ j < k * p, lu.pivot j < k * p) (skb : Nat → Skb) (mncheadsize : Nat)
    (isSys : Nat → Bool) (i : Nat) (s : Substitution) : ∃ t, blockRun false k p lu skb mncheadsize isSys i s = .done t :=
  ⟨_,(blockRun_done false isSys skb mncheadsize i below (fun _ => rfl) (fun strict => nomatch strict)
    fun strict => nomatch strict).1⟩

theorem substi_stuck (below : ∀ j < k * p, lu.pivot j < k * p)
    (loops : p = 0 ∧ len ≠ 0 ∨ p = 2 ∧ len = 2 ^ 32 - 1) (fuel : Nat) (skb newskb : Nat → Skb) (mncheadsize : Nat)
    (isSys : Nat → Bool) : substiRun false fuel k p lu skb newskb len mncheadsize isSys = .going := by
  rcases loops with ⟨rfl,_⟩ | ⟨rfl,rfl⟩
  · refine stepRun_stuck (fun i => i = 0) ?_ (blockRun_lenient below _ _ _) fuel rfl _
    rintro i rfl
    exact ⟨by omega,rfl⟩
  · refine stepRun_stuck (fun i => i % 2 = 0 ∧ i < 2 ^ 32) ?_ (blockRun_lenient below _ _ _) fuel ⟨rfl,by omega⟩ _
    rintro i ⟨_,_⟩
    exact ⟨by omega,by omega,by omega⟩

theorem substi_ends (below : ∀ j < k * p, lu.pivot j < k * p) (block : p ≤ 3) (fits : len < 2 ^ 32)
    (advances : ¬(p = 0 ∧ len ≠ 0 ∨ p = 2 ∧ len = 2 ^ 32 - 1)) (enough : 2 ^ 32 ≤ fuel) (skb newskb : Nat → Skb)
    (mncheadsize : Nat) (isSys : Nat → Bool) : substiRun false fuel k p lu skb newskb len mncheadsize isSys ≠ .going := by
  by_cases empty : len = 0
  · rw [substiRun,stepRun_over (by omega)]
    exact fun same => by cases same
  · have positive : 0 < p := by omega
    have rounds : (len + p - 1) / p ≤ len := by
      rw [Nat.div_le_iff_le_mul_add_pred positive]
      have wide : len ≤ p * len := Nat.le_mul_of_pos_left len positive
      omega
    have no_wrap : (len + p - 1) / p * p < 2 ^ 32 := by
      have cases : p = 1 ∨ p = 2 ∨ p = 3 := by omega
      rcases cases with rfl | rfl | rfl <;> omega
    exact stepRun_ends positive no_wrap (by omega) (fun i s => blockRun_ends below _ _ _ i s) _

theorem empty_ends (small : i < kOf kp) (empty : slots.skb i = none) (kernel : Kernel) :
    solveRun false (2 ^ 32) (kOf kp) (pOf kp) slots kernel ≠ .going := by
  have bound : kOf kp ≤ 0x3f := kp_bound kp
  refine Run.bind_ends (fillCoefficient_ends (matrix_fits kp) (by omega)) fun A _ => ?_
  unfold factorRun
  dsimp only
  generalize luFac (kOf kp * pOf kp) (kOf kp * pOf kp) _ = lu
  have ranked : forRun 0 (kOf kp * pOf kp) (rankRun false (kOf kp) (pOf kp) lu) ⟨kOf kp * pOf kp,slots.skb,kernel⟩ =
      .done (forRange 0 (kOf kp * pOf kp) (checkRank (pOf kp) lu) ⟨kOf kp * pOf kp,slots.skb,kernel⟩) :=
    forRun_same (fun i s _ _ => act_lenient _ _) _
  have still : (forRange 0 (kOf kp * pOf kp) (checkRank (pOf kp) lu) ⟨kOf kp * pOf kp,slots.skb,kernel⟩).skb i = none := by
    refine forRange_keeps (fun r : Rank => r.skb i = none) empty ?_
    intro j r _ _ gone
    unfold checkRank
    split
    · by_cases here : i = lu.pivot j / pOf kp
      · rw [here]
        exact Function.update_self ..
      · dsimp only
        rw [Function.update_of_ne here]
        exact gone
    · exact gone
  rw [ranked,Run.done_bind]
  split
  · exact fun same => by cases same
  have fault : forRun 0 (kOf kp) (copyRun (forRange 0 (kOf kp * pOf kp) (checkRank (pOf kp) lu)
      ⟨kOf kp * pOf kp,slots.skb,kernel⟩).skb) (fun _ => default,(forRange 0 (kOf kp * pOf kp) (checkRank (pOf kp) lu)
      ⟨kOf kp * pOf kp,slots.skb,kernel⟩).kernel) = .fault := by
    refine forRun_faults_any (Nat.zero_le i) small ?_ ?_ _
    · intro j s _ _
      unfold copyRun
      split <;> exact fun same => by cases same
    · intro s
      rw [copyRun,still]
  unfold decodeRun
  rw [fault,Run.fault_bind]
  exact fun same => by cases same

section Ends

variable {pkts : List Skb} (count : pkts.length = kOf kp) (nonempty : 0 < kOf kp)

include count nonempty

theorem stuck_going (stuck : Stuck (kOf kp) (pOf kp) pkts) (kernel : Kernel) (fuel : Nat) :
    skbsDecodingRun false fuel pkts kp kernel = .going := by
  obtain ⟨_,filled,first,ran⟩ := (placed_cases false count nonempty (fun strict => nomatch strict)
    (generates_indexed stuck.generates) kernel).2 stuck.distinct
  have invertible : Regular (kOf kp) (pOf kp) pkts := by
    rcases stuck.loops with ⟨zero,_⟩ | ⟨_,regular,_⟩
    · rw [zero]
      exact regular_zero _ _
    · exact regular
  have loops : pOf kp = 0 ∧ decodedLen (kOf kp) (pOf kp) pkts ≠ 0 ∨
      pOf kp = 2 ∧ decodedLen (kOf kp) (pOf kp) pkts = 2 ^ 32 - 1 := stuck.loops.imp_right fun last => ⟨last.1,last.2.2⟩
  rw [ran,solveRun]
  rcases fillCoefficient_safe false (matrix_fits kp) filled.full (fun strict => nomatch strict) fuel with
    still | ⟨A,filled_A,right⟩
  · rw [still,Run.going_bind]
  · obtain ⟨lu,_,below,full,next⟩ := (factor_cases filled (kp_bound kp) right kernel).2 invertible
    obtain ⟨_,_,_,decoded⟩ := decode_cases (p := pOf kp) false lu filled (kp_bound kp) nonempty full
      fun strict => nomatch strict
    rw [filled_A,Run.done_bind,next,decoded,first]
    rw [decodedLen] at loops
    rw [substi_stuck below loops,Run.going_bind]

theorem distinct_ends (sizes : ∀ s ∈ pkts, s.len < 2 ^ 32) (generates : Generates (kOf kp) pkts) (distinct : Distinct pkts)
    (advances : ¬Stuck (kOf kp) (pOf kp) pkts) (kernel : Kernel) :
    skbsDecodingRun false (2 ^ 32) pkts kp kernel ≠ .going := by
  obtain ⟨_,filled,first,ran⟩ := (placed_cases false count nonempty (fun strict => nomatch strict)
    (generates_indexed generates) kernel).2 distinct
  have bound : kOf kp ≤ 0x3f := kp_bound kp
  obtain ⟨A,filled_A,right⟩ := Run.safe_done (fillCoefficient_safe false (matrix_fits kp) filled.full
    (fun strict => nomatch strict) (2 ^ 32)) (fillCoefficient_ends (matrix_fits kp) (by omega))
  obtain ⟨singular,regular⟩ := factor_cases filled bound right kernel
  rw [ran,solveRun,filled_A,Run.done_bind]
  by_cases invertible : Regular (kOf kp) (pOf kp) pkts
  · obtain ⟨lu,_,below,full,next⟩ := regular invertible
    obtain ⟨_,_,_,decoded⟩ := decode_cases (p := pOf kp) false lu filled bound nonempty full fun strict => nomatch strict
    have fits : decodedLen (kOf kp) (pOf kp) pkts < 2 ^ 32 := by
      rw [decodedLen,← first]
      exact subU32_small (sizes _ (slot_member filled nonempty))
    have goes_on : ¬(pOf kp = 0 ∧ decodedLen (kOf kp) (pOf kp) pkts ≠ 0 ∨
        pOf kp = 2 ∧ decodedLen (kOf kp) (pOf kp) pkts = 2 ^ 32 - 1) := fun loops =>
      advances ⟨generates,distinct,loops.imp_right fun last => ⟨last.1,invertible,last.2⟩⟩
    rw [next,decoded,first]
    refine Run.bind_ends (substi_ends below (p_bound kp) fits goes_on (Nat.le_refl _) _ _ _ _) fun s _ => ?_
    exact fun same => by cases same
  · obtain ⟨d,returned⟩ := singular invertible
    rw [returned]
    exact fun same => by cases same

theorem decoding_ends (sizes : ∀ s ∈ pkts, s.len < 2 ^ 32) (kernel : Kernel) :
    (∃ fuel, skbsDecodingRun false fuel pkts kp kernel ≠ .going) ↔ ¬Stuck (kOf kp) (pOf kp) pkts := by
  constructor
  · rintro ⟨fuel,ends⟩ stuck
    exact ends (stuck_going count nonempty stuck kernel fuel)
  intro advances
  refine ⟨2 ^ 32,?_⟩
  by_cases usual : Generates (kOf kp) pkts ∧ Distinct pkts
  · exact distinct_ends count nonempty sizes usual.1 usual.2 advances kernel
  have first := place_run false count (fun strict => nomatch strict) fun strict => nomatch strict
  unfold skbsDecodingRun
  dsimp only
  rw [emptySlots] at first
  rw [first,Run.done_bind]
  cases result : forTry 0 (kOf kp) (fun _ => placeSystematic (kOf kp)) ⟨pkts,fun _ => false,fun _ => none⟩ with
  | error stop => cases stop <;> exact fun same => by cases same
  | ok s =>
    by_cases full : ∀ i < kOf kp, ∃ t, (forRange 0 (kOf kp) fillCoded s).skb i = some t
    · have bound : kOf kp ≤ 0x3f := kp_bound kp
      have generates := full_generates count (by omega) result full
      exact absurd ⟨generates,((placement generates).2 s result).1⟩ usual
    · push Not at full
      obtain ⟨i,small,missing⟩ := full
      exact empty_ends small (Option.eq_none_iff_forall_ne_some.mpr missing) kernel

end Ends

open CallSample in
theorem decoding_ends_sample : ∃ fuel,
    skbsDecodingRun false fuel (callOf whole).skbs (callOf whole).kp (callOf whole).kernel ≠ .going := by
  refine (decoding_ends rfl (by decide) (by decide) _).mpr fun stuck => ?_
  rcases stuck.loops with ⟨zero,_⟩ | ⟨two,_⟩
  · exact absurd zero (by decide)
  · exact absurd two (by decide)

def CallSample.zeroBlock : Arrival := sampleFrame [0x04,7,0xfc,9]

open CallSample in
theorem decoding_never_ends : zeroBlock.call sampleStart = some (callOf zeroBlock) ∧
    ¬∃ fuel, skbsDecodingRun false fuel (callOf zeroBlock).skbs (callOf zeroBlock).kp (callOf zeroBlock).kernel ≠ .going := by
  have member : ∀ s ∈ (callOf zeroBlock).skbs, mindex s = 0x3f := by decide
  have stuck : Stuck (kOf (callOf zeroBlock).kp) (pOf (callOf zeroBlock).kp) (callOf zeroBlock).skbs :=
    ⟨⟨rfl,fun s here => .inr (member s here)⟩,by decide,.inl ⟨by decide,by decide⟩⟩
  exact ⟨rfl,fun ⟨fuel,ends⟩ => ends (stuck_going rfl (by decide) stuck _ fuel)⟩

end Mac80211.MncRx

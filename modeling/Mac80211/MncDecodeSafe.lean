import Mac80211.MncDecodePlace
import Mac80211.MncInvariant

namespace Mac80211.MncRx
open Gf Loops Guarded LinearSystems LuFac

structure InBounds (k p : Nat) (pkts : List Skb) : Prop where
  indices : Indexed k pkts
  headers : Distinct pkts → 0 < p → ∀ s ∈ pkts, isCoded s → 3 + p * p * k ≤ s.len
  payloads : Distinct pkts → 0 < p → Regular k p pkts →
    p ∣ payload k p (firstSlot pkts) ∧ ∀ s ∈ pkts, payload k p (firstSlot pkts) ≤ payload k p s

theorem p_bound (kp : UInt8) : (kp &&& 0x3).toNat ≤ 3 := by
  exact Nat.and_le_right

section Slots

variable {slots : Slots}

theorem slot_head (filled : Filled k pkts slots) (bound : k ≤ 0x3f) (small : i < k) :
    (if slots.isSys i then 3 else 3 + p * p * k) = headOf k p (slots.packet i) := by
  rw [headOf,filled_coded filled bound small]
  cases slots.isSys i <;> rfl

theorem slot_member (filled : Filled k pkts slots) (small : i < k) : slots.packet i ∈ pkts :=
  filled.packets.mem_iff.mp (List.mem_map.mpr ⟨i,List.mem_range.mpr small,rfl⟩)

theorem member_slot (filled : Filled k pkts slots) (member : s ∈ pkts) : ∃ i < k, slots.packet i = s := by
  obtain ⟨i,small,same⟩ := List.mem_map.mp (filled.packets.mem_iff.mpr member)
  exact ⟨i,List.mem_range.mp small,same⟩

theorem rank_run (below : ∀ i < k * p, lu.pivot i < k * p) (rank : Rank) :
    forRun 0 (k * p) (rankRun strict k p lu) rank = .done (forRange 0 (k * p) (checkRank p lu) rank) := by
  refine forRun_same (fun i s _ small => act_inside ?_ strict _) rank
  have slot : lu.pivot i / p < k := Nat.div_lt_of_lt_mul (by rw [Nat.mul_comm]; exact below i small)
  intro u member
  rcases List.mem_cons.mp member with rfl | rest
  · exact small
  · split at rest
    · rw [List.mem_singleton.mp rest]
      exact slot
    · exact absurd rest List.not_mem_nil

theorem factor_cases (filled : Filled k pkts slots) (bound : k ≤ 0x3f)
    (right : ∀ r < k * p, ∀ c < k * p, A r c = coefficient p slots.isSys slots.packet r c) (kernel : Kernel) :
    (¬Regular k p pkts → ∃ d, ∀ strict fuel, factorRun strict fuel k p slots kernel A = .done d) ∧
    (Regular k p pkts → ∃ lu rank, (∀ i < k * p, lu.pivot i < k * p) ∧ (∀ m < k, rank.skb m = some (slots.packet m)) ∧
      ∀ strict fuel, factorRun strict fuel k p slots kernel A = decodeRun strict fuel k p slots lu rank) := by
  have factors := luFac_factors (n := k * p) ⟨A,fun _ _ => 0,fun _ _ => 0,id⟩ rfl
  obtain ⟨regular,_,checked⟩ := lu_checked (p := p) filled bound right kernel
  unfold factorRun
  generalize luFac (k * p) (k * p) ⟨A,fun _ _ => 0,fun _ _ => 0,id⟩ = lu at *
  have ranked : ∀ strict, forRun 0 (k * p) (rankRun strict k p lu) ⟨k * p,slots.skb,kernel⟩ =
      .done (forRange 0 (k * p) (checkRank p lu) ⟨k * p,slots.skb,kernel⟩) := fun strict =>
    rank_run factors.permutes.below _
  simp only [ranked,Run.done_bind]
  generalize forRange 0 (k * p) (checkRank p lu) ⟨k * p,slots.skb,kernel⟩ = rank at *
  rcases checked.verdict with ⟨_,nonzero,slots_full,_⟩ | ⟨_,⟨i,small,zero⟩,_⟩
  · have invertible := regular.mp (factors.regular.mpr fun i small zero => nonzero i small (field_zero.mp zero))
    refine ⟨fun singular => absurd invertible singular,fun _ => ⟨lu,rank,factors.permutes.below,slots_full,?_⟩⟩
    intro _ _
    rw [if_neg (by omega)]
  · have singular : ¬Regular k p pkts := by
      rw [← regular,factors.regular]
      exact fun all => all i small (field_zero.mpr zero)
    refine ⟨fun _ => ⟨⟨false,slots.skbs ++ occupied k rank.skb,[],rank.kernel⟩,?_⟩,
      fun invertible => absurd invertible singular⟩
    intro _ _
    rw [if_pos (by omega)]

theorem copy_run (full : ∀ i < k, skb i = some (slots.packet i)) (kernel : Kernel) :
    ∃ copies, forRun 0 k (copyRun skb) (fun _ => default,kernel) = .done copies ∧
      ∀ i < k, (copies.1 i).len = (slots.packet i).len := by
  have same : forRun 0 k (copyRun skb) (fun _ => default,kernel) =
      .done (forRange 0 k (copySlot fun i => (skb i).getD default) (fun _ => default,kernel)) :=
    forRun_same (fun i s _ small => by rw [copyRun,full i small]) _
  refine ⟨_,same,fun i small => ?_⟩
  rw [(copySlots k (fun i => (skb i).getD default) kernel).2 i small,full i small]
  rfl

theorem decode_cases (strict : Bool) (lu : LuFac.State) (filled : Filled k pkts slots) (bound : k ≤ 0x3f) (nonempty : 0 < k)
    (full : ∀ m < k, rank.skb m = some (slots.packet m))
    (long : strict = true → headOf k p (slots.packet 0) ≤ (slots.packet 0).len) :
    ∃ (newskb : Nat → Skb) (finish : Substitution → Decoded), (∀ j < k, (newskb j).len = (slots.packet j).len) ∧ ∀ fuel,
      decodeRun strict fuel k p slots lu rank = (substiRun strict fuel k p lu (fun i => (rank.skb i).getD default) newskb
          (subU32 (slots.packet 0).len (headOf k p (slots.packet 0))) (3 + p * p * k) slots.isSys).bind fun s =>
        .done (finish s) := by
  obtain ⟨⟨newskb,kernel⟩,copied,lengths⟩ := copy_run full rank.kernel
  refine ⟨newskb,output k (subU32 (slots.packet 0).len (headOf k p (slots.packet 0))) slots kernel,lengths,fun fuel => ?_⟩
  have head := slot_head (p := p) filled bound nonempty
  rw [decodeRun,copied,Run.done_bind]
  dsimp only
  rw [head,lengths 0 nonempty,act_done,Run.done_bind]
  intro checked
  have enough := long checked
  simpa using ⟨nonempty,by omega⟩

theorem substi_safe (below : ∀ i < k * p, lu.pivot i < k * p)
    (slots_skb : ∀ j < k, skb j = slots.packet j) (lengths : ∀ j < k, (newskb j).len = (slots.packet j).len)
    (fits : len < 2 ^ 32) (divides : 0 < p → p ∣ len)
    (payloads : 0 < p → ∀ j < k, (if slots.isSys j then 3 else 3 + p * p * k) + len ≤ (slots.packet j).len) (fuel : Nat) :
    (substiRun true fuel k p lu skb newskb len (3 + p * p * k) slots.isSys).Safe fun _ => True := by
  refine Run.safe_mono (stepRun_safe (fun i (s : Substitution) => p ∣ i ∧ ∀ j, (s.newskb j).len = (newskb j).len) ?_ fuel
    ⟨Nat.dvd_zero p,fun _ => rfl⟩) fun _ _ => trivial
  rintro i s inside ⟨multiple,kept⟩
  have block : 0 < p → i + p ≤ len := by
    intro positive
    obtain ⟨a,rfl⟩ := multiple
    obtain ⟨b,rfl⟩ := divides positive
    have order : a < b := Nat.lt_of_mul_lt_mul_left inside
    have bound : p * (a + 1) ≤ p * b := Nat.mul_le_mul_left p order
    rwa [Nat.mul_add,Nat.mul_one] at bound
  obtain ⟨ran,after⟩ := blockRun_done true slots.isSys skb (3 + p * p * k) i below kept (fun _ positive j small => by
      rw [slots_skb j small]
      have bound := payloads positive j small
      omega)
    (fun _ positive j small => by
      rw [lengths j small]
      have bound := payloads positive j small
      omega)
  refine ⟨_,ran,?_,after⟩
  rw [Nat.mod_eq_of_lt (by omega)]
  exact Nat.dvd_add multiple (Nat.dvd_refl p)

theorem substi_faults (skb newskb : Nat → Skb) (below : ∀ i < k * p, lu.pivot i < k * p)
    (slots_skb : ∀ j < k, skb j = slots.packet j) (positive : 0 < p) (some_bytes : 0 < len) (fits : len + p < 2 ^ 32)
    (small : j < k)
    (short : (slots.packet j).len < (if slots.isSys j then 3 else 3 + p * p * k) + (len + p - 1) / p * p) :
    ∀ fuel, (len + p - 1) / p ≤ fuel → substiRun true fuel k p lu skb newskb len (3 + p * p * k) slots.isSys = .fault := by
  intro fuel enough
  have whole := Nat.div_mul_le_self (len + p - 1) p
  have rounds : 0 < (len + p - 1) / p := Nat.div_pos (by omega) positive
  refine (stepRun_forRun positive (by omega) fuel enough _).trans ?_
  refine forRun_faults_any (m := (len + p - 1) / p - 1) (Nat.zero_le _) (by omega)
    (fun i s _ _ => blockRun_ends below _ _ _ _ s) ?_ _
  intro s
  refine blockRun_faults (l := p - 1) small (by omega) ?_ lu s
  rw [slots_skb j small]
  have last : ((len + p - 1) / p - 1) * p + p = (len + p - 1) / p * p := by
    rw [← Nat.succ_mul]
    congr 1
    omega
  omega

end Slots

theorem placed_cases (strict : Bool) (count : pkts.length = kOf kp) (nonempty : 0 < kOf kp)
    (long : strict = true → ∀ s ∈ pkts, 3 ≤ s.len) (indexed : Indexed (kOf kp) pkts) (kernel : Kernel) :
    (¬Distinct pkts → ∃ d, ∀ fuel, skbsDecodingRun strict fuel pkts kp kernel = .done d) ∧
    (Distinct pkts → ∃ slots, Filled (kOf kp) pkts slots ∧ slots.packet 0 = firstSlot pkts ∧
      ∀ fuel, skbsDecodingRun strict fuel pkts kp kernel = solveRun strict fuel (kOf kp) (pOf kp) slots kernel) := by
  have ran : ∀ fuel, skbsDecodingRun strict fuel pkts kp kernel = placedRun strict fuel (kOf kp) (pOf kp) kernel
      (forTry 0 (kOf kp) (fun _ => placeSystematic (kOf kp)) (emptySlots pkts)) := by
    intro fuel
    have first := place_run strict count long fun _ => indexed
    unfold skbsDecodingRun
    dsimp only
    rw [emptySlots] at first
    rw [first]
    rfl
  obtain ⟨left,ended⟩ := placed_indexed count indexed
  cases result : forTry 0 (kOf kp) (fun _ => placeSystematic (kOf kp)) (emptySlots pkts) with
  | error stop =>
    have repeated := left stop result
    cases stop with
    | null => exact repeated.elim
    | duplicate skbs extra =>
      refine ⟨fun _ => ⟨⟨false,skbs,[],kfreeSkb (some extra) kernel⟩,?_⟩,fun distinct => absurd distinct repeated.1⟩
      intro _
      rw [ran,result]
      rfl
  | ok s =>
    obtain ⟨placed,generates,distinct⟩ := ended s result
    have filled := ((placement generates).2 s result).2
    refine ⟨fun twice => absurd distinct twice,fun _ => ⟨_,filled,first_slot nonempty generates placed filled,?_⟩⟩
    intro _
    rw [ran,result]
    rfl

theorem matrix_fits (kp : UInt8) : kOf kp * pOf kp < 2 ^ 32 := by
  have product := Nat.mul_le_mul (kp_bound kp) (p_bound kp)
  show (kp >>> 2).toNat * (kp &&& 0x3).toNat < _
  omega

theorem header_inside {pkts : List Skb} (headers : 0 < p → ∀ s ∈ pkts, isCoded s → 3 + p * p * k ≤ s.len)
    (long : ∀ s ∈ pkts, 3 ≤ s.len ∧ s.len < 2 ^ 32) (member : s ∈ pkts) : headOf k p s ≤ s.len := by
  have short := (long s member).1
  unfold headOf
  split
  · rename_i coded
    by_cases positive : 0 < p
    · exact headers positive s member coded
    · have zero : p = 0 := by omega
      subst p
      omega
  · exact short

theorem head_least (k p : Nat) (s : Skb) : 3 ≤ headOf k p s := by
  unfold headOf
  split <;> omega

theorem blocks_cover (positive : 0 < p) (len : Nat) : len ≤ (len + p - 1) / p * p := by
  have parts := Nat.div_add_mod' (len + p - 1) p
  have small := Nat.mod_lt (len + p - 1) positive
  omega

section Bounds

variable {pkts : List Skb} (count : pkts.length = kOf kp) (nonempty : 0 < kOf kp)
  (long : ∀ s ∈ pkts, 3 ≤ s.len ∧ s.len < 2 ^ 32)

include count long

theorem faultless_indices (kernel : Kernel) (safe : ∀ fuel, skbsDecodingRun true fuel pkts kp kernel ≠ .fault) :
    Indexed (kOf kp) pkts := by
  intro n inside distinct
  by_contra wrong
  have fault := place_faults (fun s member => (long s member).1) count inside distinct wrong
  refine safe 0 ?_
  unfold skbsDecodingRun
  dsimp only
  rw [emptySlots] at fault
  rw [fault,Run.fault_bind]

include nonempty

theorem decoding_safe (ok : InBounds (kOf kp) (pOf kp) pkts) (kernel : Kernel) (fuel : Nat) :
    (skbsDecodingRun true fuel pkts kp kernel).Safe fun _ => True := by
  obtain ⟨repeated,ended⟩ := placed_cases true count nonempty (fun _ s member => (long s member).1) ok.indices kernel
  by_cases distinct : Distinct pkts
  · obtain ⟨slots,filled,first,ran⟩ := ended distinct
    have bound := kp_bound kp
    rw [ran,solveRun]
    refine Run.bind_safe (fillCoefficient_safe true (matrix_fits kp) filled.full ?_ fuel) fun A right => ?_
    · intro _ i small mark positive
      refine ok.headers distinct positive _ (slot_member filled small) ?_
      rw [filled_coded filled bound small,mark]
      rfl
    obtain ⟨singular,regular⟩ := factor_cases filled bound right kernel
    by_cases invertible : Regular (kOf kp) (pOf kp) pkts
    · obtain ⟨lu,_,below,full,next⟩ := regular invertible
      have zero := slot_member filled nonempty
      have head : headOf (kOf kp) (pOf kp) (slots.packet 0) ≤ (slots.packet 0).len :=
        header_inside (fun positive => ok.headers distinct positive) long zero
      obtain ⟨_,_,lengths,decoded⟩ := decode_cases true lu filled bound nonempty full fun _ => head
      have length := (long _ zero).2
      have len : subU32 (slots.packet 0).len (headOf (kOf kp) (pOf kp) (slots.packet 0)) =
          payload (kOf kp) (pOf kp) (slots.packet 0) := by rw [subU32,if_pos head,payload]
      rw [next,decoded,len]
      refine Run.bind_safe (substi_safe below (fun j small => by rw [full j small]; rfl) lengths ?_ ?_ ?_ fuel)
        fun s _ => .inr ⟨_,rfl,trivial⟩
      · unfold payload
        omega
      · intro positive
        rw [first]
        exact (ok.payloads distinct positive invertible).1
      · intro positive j small
        have member := slot_member filled small
        have shortest := (ok.payloads distinct positive invertible).2 _ member
        have inside := header_inside (fun positive => ok.headers distinct positive) long member
        rw [slot_head filled bound small,first]
        unfold payload at *
        omega
    · obtain ⟨d,returned⟩ := singular invertible
      rw [returned]
      exact .inr ⟨d,rfl,trivial⟩
  · obtain ⟨d,returned⟩ := repeated distinct
    rw [returned]
    exact .inr ⟨d,rfl,trivial⟩

section
variable (kernel : Kernel) (safe : ∀ fuel, skbsDecodingRun true fuel pkts kp kernel ≠ .fault) (distinct : Distinct pkts) (positive : 0 < pOf kp)
include kernel safe distinct positive

theorem faultless_headers (member : s ∈ pkts) (coded : isCoded s = true) : 3 + pOf kp * pOf kp * kOf kp ≤ s.len := by
  have indexed := faultless_indices count long kernel safe
  obtain ⟨slots,filled,_,ran⟩ := (placed_cases true count nonempty (fun _ s member => (long s member).1)
    indexed kernel).2 distinct
  obtain ⟨i,small,rfl⟩ := member_slot filled member
  have mark : slots.isSys i = false := by
    rw [filled_coded filled (kp_bound kp) small] at coded
    simpa using coded
  by_contra short
  refine safe (kOf kp) ?_
  rw [ran,solveRun,fillCoefficient_faults (matrix_fits kp) small mark positive (filled.full i small) (by omega),
    Run.fault_bind]

theorem faultless_payloads (invertible : Regular (kOf kp) (pOf kp) pkts) :
    pOf kp ∣ payload (kOf kp) (pOf kp) (firstSlot pkts) ∧
      ∀ s ∈ pkts, payload (kOf kp) (pOf kp) (firstSlot pkts) ≤ payload (kOf kp) (pOf kp) s := by
  have headers := fun s member coded => faultless_headers (s := s) count nonempty long kernel safe distinct positive member coded
  have inside : ∀ s ∈ pkts, headOf (kOf kp) (pOf kp) s ≤ s.len := fun s member =>
    header_inside (fun _ => headers) long member
  have indexed := faultless_indices count long kernel safe
  obtain ⟨slots,filled,first,ran⟩ := (placed_cases true count nonempty (fun _ s member => (long s member).1)
    indexed kernel).2 distinct
  have bound := kp_bound kp
  have zero := slot_member filled nonempty
  have head := inside _ zero
  have fits : payload (kOf kp) (pOf kp) (slots.packet 0) + pOf kp < 2 ^ 32 := by
    have small_p : pOf kp ≤ 3 := p_bound kp
    have length := (long _ zero).2
    have least := head_least (kOf kp) (pOf kp) (slots.packet 0)
    unfold payload
    omega
  have len : subU32 (slots.packet 0).len (headOf (kOf kp) (pOf kp) (slots.packet 0)) =
      payload (kOf kp) (pOf kp) (slots.packet 0) := by rw [subU32,if_pos head,payload]
  have cover := blocks_cover positive (payload (kOf kp) (pOf kp) (slots.packet 0))
  -- Any packet that is too short for the last block is read beyond its end.
  have enough : 0 < payload (kOf kp) (pOf kp) (slots.packet 0) → ∀ j < kOf kp,
      (payload (kOf kp) (pOf kp) (slots.packet 0) + pOf kp - 1) / pOf kp * pOf kp ≤
        payload (kOf kp) (pOf kp) (slots.packet j) := by
    intro some_bytes j small
    by_contra short
    obtain ⟨fuel,for_fill,for_blocks⟩ : ∃ fuel, kOf kp ≤ fuel ∧
        (payload (kOf kp) (pOf kp) (slots.packet 0) + pOf kp - 1) / pOf kp ≤ fuel :=
      ⟨_,Nat.le_max_left _ _,Nat.le_max_right _ _⟩
    obtain ⟨A,filled_A,right⟩ := Run.safe_done (fillCoefficient_safe true (matrix_fits kp) filled.full (fun _ i small mark _ =>
      headers _ (slot_member filled small) (by rw [filled_coded filled bound small,mark]; rfl)) fuel)
      (fillCoefficient_ends (matrix_fits kp) for_fill)
    obtain ⟨lu,rank,below,full,next⟩ := (factor_cases filled bound right kernel).2 invertible
    obtain ⟨newskb,_,_,decoded⟩ := decode_cases true lu filled bound nonempty full fun _ => head
    have fault := substi_faults (fun i => (rank.skb i).getD default) newskb below
      (fun j small => by rw [full j small]; rfl) positive some_bytes fits small
      (by
        rw [slot_head filled bound small]
        unfold payload at *
        omega) fuel for_blocks
    refine safe fuel ?_
    rw [ran,solveRun,filled_A,Run.done_bind,next,decoded,len,fault,Run.fault_bind]
  rw [← first]
  by_cases empty : payload (kOf kp) (pOf kp) (slots.packet 0) = 0
  · rw [empty]
    exact ⟨Nat.dvd_zero _,fun s _ => Nat.zero_le _⟩
  · have whole := enough (by omega) 0 nonempty
    refine ⟨?_,fun s member => ?_⟩
    · have exact_blocks : (payload (kOf kp) (pOf kp) (slots.packet 0) + pOf kp - 1) / pOf kp * pOf kp =
          payload (kOf kp) (pOf kp) (slots.packet 0) := by omega
      exact Dvd.intro_left _ exact_blocks
    · obtain ⟨j,small,rfl⟩ := member_slot filled member
      have covered := enough (by omega) j small
      omega

end

end Bounds

end Mac80211.MncRx

import Mac80211.MncDecodeAccess

namespace Mac80211.MncRx
open Loops Guarded

-- The first loop returns at the first index that it meets twice.
def Indexed (k : Nat) (pkts : List Skb) : Prop :=
  ∀ n (h : n < pkts.length), Distinct (pkts.take n) → mindex pkts[n] < k ∨ mindex pkts[n] = 0x3f

def emptySlots (pkts : List Skb) : Slots := ⟨pkts,fun _ => false,fun _ => none⟩

def headOf (k p : Nat) (s : Skb) : Nat := if isCoded s then 3 + p * p * k else 3
def payload (k p : Nat) (s : Skb) : Nat := s.len - headOf k p s

def firstSlot (pkts : List Skb) : Skb := (pkts.find? fun s => mindex s == 0).getD ((pkts.find? isCoded).getD default)

theorem empty_placed (k : Nat) (pkts : List Skb) : Placed k pkts 0 (emptySlots pkts) :=
  ⟨by simp [emptySlots],fun _ => rfl,fun _ _ here => (nomatch here),by simp [occupied,emptySlots]⟩

theorem placeSystematic_shorter (placed : placeSystematic k s = .ok t) : s.skbs.length ≤ t.skbs.length + 1 := by
  unfold placeSystematic at placed
  split at placed
  · cases placed
  · rename_i queue
    rw [queue]
    split at placed
    · split at placed
      · cases placed
      · cases placed
        exact Nat.le_refl _
    · cases placed
      simp

theorem place_run (strict : Bool) (count : pkts.length = k) (long : strict = true → ∀ s ∈ pkts, 3 ≤ s.len)
    (indexed : strict = true → Indexed k pkts) :
    forRun 0 k (fun _ => placeRun strict k) (.ok (emptySlots pkts)) =
      .done (forTry 0 k (fun _ => placeSystematic k) (emptySlots pkts)) := by
  have ended : ∃ r, forRun 0 k (fun _ => placeRun strict k) (.ok (emptySlots pkts)) = .done r ∧
      r = forTry 0 k (fun _ => placeSystematic k) (emptySlots pkts) := by
    refine forRun_post (fun n r => r = forTry 0 n (fun _ => placeSystematic k) (emptySlots pkts) ∧
      ∀ s, r = .ok s → k ≤ s.skbs.length + n ∧ (strict = true → Placed k pkts n s)) (Nat.zero_le k) ?_ ?_
      fun r known => known.1
    · refine ⟨(forTry_empty (Nat.le_refl 0) _ _).symm,?_⟩
      rintro s here
      cases here
      exact ⟨by simp [emptySlots,count],fun _ => empty_placed k pkts⟩
    rintro n r _ _ ⟨same,known⟩
    have next := forTry_next (Nat.zero_le n) (fun _ => placeSystematic k) (emptySlots pkts)
    rw [← same] at next
    cases r with
    | error stop => exact ⟨.error stop,rfl,next.symm,fun s here => by cases here⟩
    | ok s =>
      obtain ⟨left,placed⟩ := known s rfl
      have inside : n < pkts.length := by omega
      refine ⟨placeSystematic k s,?_,next.symm,?_⟩
      · cases queue : s.skbs with
        | nil =>
          rw [queue,List.length_nil] at left
          omega
        | cons skbTemp =>
          have first : strict = true → skbTemp = pkts[n] := by
            intro checked
            have order := (placed checked).skbs
            rw [queue,List.drop_eq_getElem_cons inside,List.cons_append] at order
            exact (List.cons.inj order).1
          have header : strict = true → 2 < skbTemp.len := by
            intro checked
            rw [first checked]
            exact long checked _ (List.getElem_mem inside)
          simp only [placeRun,queue]
          split
          · rename_i systematic
            refine act_done ?_ _
            intro checked
            have index := indexed checked n inside (placed_distinct (placed checked))
            rw [← first checked] at index
            simpa using ⟨header checked,index.resolve_right systematic⟩
          · exact act_done (fun checked => by simpa using header checked) _
      · intro t ran
        have shorter := placeSystematic_shorter ran
        refine ⟨by omega,fun checked => ?_⟩
        have index := indexed checked n inside (placed_distinct (placed checked))
        exact (placed_next inside index (placed checked)).1 t ran
  obtain ⟨r,ran,same⟩ := ended
  rw [ran,same]

theorem place_faults (long : ∀ s ∈ pkts, 3 ≤ s.len) (count : pkts.length = k)
    (inside : n < pkts.length) (distinct : Distinct (pkts.take n))
    (wrong : ¬(mindex pkts[n] < k ∨ mindex pkts[n] = 0x3f)) :
    forRun 0 k (fun _ => placeRun true k) (.ok (emptySlots pkts)) = .fault := by
  have meets : ∀ i s, (h : i < pkts.length) → Placed k pkts i s → ∃ rest, s.skbs = pkts[i] :: rest := by
    intro i s h placed
    exact ⟨_,by rw [placed.skbs,List.drop_eq_getElem_cons h,List.cons_append]⟩
  have stops : ∀ i s, (h : i < pkts.length) → Placed k pkts i s → ¬(mindex pkts[i] < k ∨ mindex pkts[i] = 0x3f) →
      placeRun true k (.ok s) = .fault := by
    intro i s h placed bad
    obtain ⟨_,queue⟩ := meets i s h placed
    rw [not_or] at bad
    simp only [placeRun,queue]
    rw [if_pos bad.2]
    exact act_outside (u := (mindex pkts[i],k)) (by simp) (by simpa using bad.1) _
  refine forRun_faults (fun i r => ∃ s, r = .ok s ∧ Placed k pkts i s) ⟨_,rfl,empty_placed k pkts⟩ (Nat.zero_le n)
    (by omega) ?_ ?_
  · rintro i _ _ _ ⟨s,rfl,placed⟩
    have small : i < pkts.length := by omega
    by_cases index : mindex pkts[i] < k ∨ mindex pkts[i] = 0x3f
    · obtain ⟨_,queue⟩ := meets i s small placed
      have header := long _ (List.getElem_mem small)
      obtain ⟨ended,left⟩ := placed_next small index placed
      have once : Distinct (pkts.take (i + 1)) :=
        distinct_sublist (by
          have shorter := List.take_sublist (i + 1) (pkts.take n)
          rwa [List.take_take,Nat.min_eq_left (by omega)] at shorter) distinct
      have taken : placeRun true k (.ok s) = .done (placeSystematic k s) := by
        simp only [placeRun,queue]
        split
        · rename_i systematic
          exact act_inside (by simpa using ⟨by omega,index.resolve_right systematic⟩) true _
        · exact act_inside (by simpa using show 2 < pkts[i].len by omega) true _
      cases ran : placeSystematic k s with
      | error stop => exact absurd once (left stop ran).2
      | ok t => exact .inr ⟨.ok t,by rw [taken,ran],t,rfl,ended t ran⟩
    · exact .inl (stops i s small placed index)
  · rintro _ ⟨s,rfl,placed⟩
    exact stops n s inside placed wrong

theorem indexed_generates (count : pkts.length = k) (indexed : Indexed k pkts) (distinct : Distinct pkts) :
    Generates k pkts := by
  refine ⟨count,fun s member => ?_⟩
  obtain ⟨n,inside,rfl⟩ := List.getElem_of_mem member
  exact indexed n inside (distinct_sublist (List.take_sublist n pkts) distinct)

theorem placed_indexed (count : pkts.length = k) (indexed : Indexed k pkts) :
    (∀ e, forTry 0 k (fun _ => placeSystematic k) (emptySlots pkts) = .error e → Repeated pkts e) ∧
    ∀ s, forTry 0 k (fun _ => placeSystematic k) (emptySlots pkts) = .ok s →
      Placed k pkts k s ∧ Generates k pkts ∧ Distinct pkts := by
  have loop : (∀ s, forTry 0 k (fun _ => placeSystematic k) (emptySlots pkts) = .ok s → Placed k pkts k s) ∧
      ∀ e, forTry 0 k (fun _ => placeSystematic k) (emptySlots pkts) = .error e → Repeated pkts e := by
    refine forTry_rule (fun n s => Placed k pkts n s) (Repeated pkts) (Nat.zero_le k) (empty_placed k pkts) ?_
    intro n s _ _ placed
    have inside : n < pkts.length := by omega
    have next := placed_next inside (indexed n inside (placed_distinct placed)) placed
    exact ⟨next.1,fun e stopped => (next.2 e stopped).1⟩
  obtain ⟨ended,left⟩ := loop
  refine ⟨left,fun s ran => ?_⟩
  have placed := ended s ran
  have distinct := placed_distinct placed
  rw [List.take_of_length_le (by omega)] at distinct
  exact ⟨placed,indexed_generates count indexed distinct,distinct⟩

theorem fillCoded_first (positive : 0 < k) (s : Slots) : (forRange 0 k fillCoded s).isSys = s.isSys ∧
      (forRange 0 k fillCoded s).skb 0 = if s.isSys 0 then s.skb 0 else s.skbs.head? := by
  suffices rounds : (forRange 0 k fillCoded s).isSys = s.isSys ∧ (k = 0 → forRange 0 k fillCoded s = s) ∧
      (0 < k → (forRange 0 k fillCoded s).skb 0 = if s.isSys 0 then s.skb 0 else s.skbs.head?) from
    ⟨rounds.1,rounds.2.2 positive⟩
  refine forRange_rule (fun n (t : Slots) => t.isSys = s.isSys ∧
    (n = 0 → t = s) ∧ (0 < n → t.skb 0 = if s.isSys 0 then s.skb 0 else s.skbs.head?))
    (Nat.zero_le k) ⟨rfl,fun _ => rfl,fun none_yet => by omega⟩ ?_
  · rintro n t _ _ ⟨marks,first,later⟩
    unfold fillCoded
    refine ⟨?_,fun none_yet => by omega,fun _ => ?_⟩
    · split
      · exact marks
      · exact marks
    by_cases zero : n = 0
    · have same := first zero
      subst n
      subst t
      split
      · rfl
      · dsimp only
        exact Function.update_self ..
    · have before := later (by omega)
      rw [← marks] at before ⊢
      split
      · exact before
      · dsimp only
        rw [Function.update_of_ne (fun same => zero same.symm)]
        exact before

theorem first_slot (positive : 0 < k) (generates : Generates k pkts) (placed : Placed k pkts k s)
    (filled : Filled k pkts (forRange 0 k fillCoded s)) :
    (forRange 0 k fillCoded s).packet 0 = firstSlot pkts := by
  have all := generates.count
  have distinct := placed_distinct placed
  have slots := placed.slots
  have skbs := placed.skbs
  rw [List.take_of_length_le (by omega)] at distinct slots skbs
  rw [List.drop_of_length_le (by omega),List.nil_append] at skbs
  have full := filled.full 0 positive
  rw [(fillCoded_first positive s).2] at full
  unfold firstSlot
  cases mark : s.isSys 0 with
  | true =>
    rw [mark,if_pos rfl] at full
    have index := (placed.owned 0 _ full).1
    have member : (forRange 0 k fillCoded s).packet 0 ∈ pkts.filter fun t => !isCoded t :=
      slots.mem_iff.mp (List.mem_filterMap.mpr ⟨0,List.mem_range.mpr positive,full⟩)
    cases found : pkts.find? fun t => mindex t == 0 with
    | none =>
      have missing := List.find?_eq_none.mp found _ (List.mem_filter.mp member).1
      simp [index] at missing
    | some u =>
      have zero : mindex u = 0 := by simpa using List.find?_some found
      have other : u ∈ pkts.filter fun t => !isCoded t :=
        List.mem_filter.mpr ⟨List.mem_of_find?_eq_some found,by simp [isCoded,zero]⟩
      exact List.inj_on_of_nodup_map distinct member other (index.trans zero.symm)
  | false =>
    rw [mark,if_neg (by decide),skbs,List.head?_filter] at full
    have missing : pkts.find? (fun t => mindex t == 0) = none := by
      rw [List.find?_eq_none]
      intro u member zero
      have index : mindex u = 0 := by simpa using zero
      have other : u ∈ pkts.filter fun t => !isCoded t := List.mem_filter.mpr ⟨member,by simp [isCoded,index]⟩
      obtain ⟨m,_,here⟩ := List.mem_filterMap.mp (slots.mem_iff.mpr other)
      have place := (placed.owned m u here).1
      rw [index] at place
      subst m
      rw [placed.isSys,here] at mark
      cases mark
    rw [missing,full]
    rfl

end Mac80211.MncRx

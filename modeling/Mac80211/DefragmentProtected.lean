import Mac80211.DefragmentVerified
import Mac80211.DefragmentDelivery

namespace Mac80211.DefragmentKeys
open Ieee80211
open Function (update update_of_ne update_self)
open Defragment (Rx FragmentEntry Sdata Result rxHDefragment reassembleAdd reassembleFind addFragment fragmentMax join incPn nextPn)
open Wpa (Aead Pn)

theorem number_append (bytes : List UInt8) (b : UInt8) : Wpa.number (bytes ++ [b]) = Wpa.number bytes * 256 + b.toNat := by
  induction bytes with
  | nil => simp [Wpa.number]
  | cons first bytes ih =>
    simp only [List.cons_append,Wpa.number,ih,List.length_append,List.length_singleton,Nat.pow_succ]
    rw [Nat.add_mul,Nat.mul_assoc,Nat.add_assoc]

theorem inc_pn_number (bytes : List UInt8) :
    Wpa.number (incPn bytes).reverse = (Wpa.number bytes.reverse + 1) % 256 ^ bytes.length := by
  induction bytes with
  | nil => rfl
  | cons b bytes ih =>
    have small : Wpa.number bytes.reverse < 256 ^ bytes.length := by simpa using Wpa.number_lt bytes.reverse
    have byte : b.toNat < 256 := b.toNat_lt
    have next : (b + 1).toNat = (b.toNat + 1) % 256 := UInt8.toNat_add b 1
    simp only [incPn,List.reverse_cons,List.length_cons,Nat.pow_succ]
    split
    · rename_i stays
      have below : b.toNat + 1 < 256 := by
        by_contra top
        refine stays (UInt8.toNat_inj.mp ?_)
        rw [next,show b.toNat + 1 = 256 by omega]
        rfl
      rw [Nat.mod_eq_of_lt below] at next
      rw [List.reverse_cons,number_append,number_append,next,Nat.mod_eq_of_lt (by omega)]
      exact (Nat.add_assoc _ _ 1).symm
    · rename_i wraps
      have zero : b + 1 = 0 := not_not.mp wraps
      have top : b.toNat + 1 = 256 := by
        rw [zero] at next
        simp only [UInt8.toNat_zero] at next
        omega
      rw [List.reverse_cons,number_append,number_append,zero,ih,← Nat.mul_mod_mul_right,UInt8.toNat_zero,Nat.add_zero,Nat.add_assoc,top,
        Nat.add_mul,Nat.one_mul]

theorem succ_mod_pos (small : n < size) (positive : 0 < (n + 1) % size) : (n + 1) % size = n + 1 := by
  rcases Nat.lt_or_eq_of_le (Nat.succ_le_of_lt small) with below | full
  · exact Nat.mod_eq_of_lt below
  · rw [show n + 1 = size from full,Nat.mod_self] at positive
    cases positive

theorem next_pn_number {a b : Pn} (next : nextPn a.toList = b.toList) (positive : 0 < b.number) : b.number = a.number + 1 := by
  have counted : Wpa.number (nextPn a.toList) = (Wpa.number a.toList + 1) % 256 ^ a.toList.length := by
    simpa only [nextPn,List.reverse_reverse,List.length_reverse] using inc_pn_number a.toList.reverse
  unfold Pn.number at positive ⊢
  rw [← next,counted] at positive ⊢
  exact succ_mod_pos (Wpa.number_lt a.toList) positive

def Follows (a b : Part) : Prop := a.counted = true → b.counted = true → b.number.number = a.number.number + 1

structure Holds (entry : FragmentEntry) (parts : List Part) : Prop where
  queue : parts.map Part.rx = entry.skbList
  sound : ∀ part ∈ parts, part.Sound
  ccmp : ∀ first ∈ parts.head?, entry.ccmp = (first.rx.ccmpKey && hasProtected first.rx.fc)
  lastPn : entry.ccmp = true → ∀ last ∈ parts.getLast?, last.counted = true → entry.lastPn = last.number.toList
  chain : entry.ccmp = true → parts.IsChain Follows

def AllHold (s : Sdata) (parts : Nat → List Part) : Prop := ∀ idx, Holds (s.fragments idx) (parts idx)

structure Whole (parts : List Part) (m : Mpdu) : Prop where
  joined : ∃ first rest, parts = first :: rest ∧ m = join first.rx (rest.map Part.rx)
  sound : ∀ part ∈ parts, part.Sound
  chain : ∀ first ∈ parts.head?, (first.rx.ccmpKey && hasProtected first.rx.fc) = true → parts.IsChain Follows

theorem Holds.of_empty (empty : entry.skbList = []) : Holds entry [] := by
  constructor
  · exact empty.symm
  · simp
  · simp
  · simp
  · intro _
    exact .nil

theorem AllHold.set (held : AllHold s parts) (entryHeld : Holds entry queue) (idx : Nat) :
    AllHold (s.setEntry idx entry) (update parts idx queue) := by
  intro other
  unfold Sdata.setEntry
  by_cases same : other = idx
  · subst same
    simpa only [update_self] using entryHeld
  · simpa only [update_of_ne same] using held other

def Purged (s after : Sdata) : Prop := ∀ idx, after.fragments idx = s.fragments idx ∨ (after.fragments idx).skbList = []

theorem AllHold.purged (held : AllHold s parts) (purged : Purged s after) : AllHold after (kept after parts) := by
  intro idx
  unfold kept
  split
  · rename_i empty
    exact Holds.of_empty (List.isEmpty_iff.mp empty)
  · rename_i filled
    rcases purged idx with same | empty
    · rw [same]
      exact held idx
    · exact absurd (List.isEmpty_iff.mpr empty) filled

theorem set_purged (s : Sdata) (idx : Nat) (empty : entry.skbList = []) : Purged s (s.setEntry idx entry) := by
  intro other
  unfold Sdata.setEntry
  by_cases here : other = idx
  · subst here
    right
    simpa only [update_self] using empty
  · exact .inl (update_of_ne here _ _)

theorem Purged.trans (left : Purged s middle) (right : Purged middle after) : Purged s after := by
  intro idx
  rcases right idx with same | empty
  · rw [same]
    exact left idx
  · exact .inr empty

theorem reassemble_find_purged (hz : UInt16) (rx : Rx) (rounds idx : Nat) (s : Sdata) :
    Purged s (reassembleFind hz rx rounds idx s).1 := by
  induction rounds generalizing idx s with
  | zero => exact fun _ => .inl rfl
  | succ rounds ih =>
    simp only [reassembleFind]
    generalize (if idx = 0 then fragmentMax - 1 else idx - 1) = before
    split
    · exact ih _ _
    · split
      · exact (set_purged s before rfl).trans (ih before _)
      · exact fun _ => .inl rfl

def grown (entry : FragmentEntry) (rx : Rx) : FragmentEntry :=
  {entry with
    lastPn := if entry.ccmp then nextPn entry.lastPn else entry.lastPn,
    skbList := entry.skbList ++ [rx],
    lastFrag := rx.frag,
    extraLen := entry.extraLen + rx.skb.body.length}

def Passes (entry : FragmentEntry) (rx : Rx) : Prop :=
  entry.ccmp = true → rx.ccmpKey = true ∧ nextPn entry.lastPn = rx.rxPn

theorem add_fragment_cases (s : Sdata) (idx : Nat) (rx : Rx) :
    addFragment s idx rx = (s,.dropUnusable) ∨ Passes (s.fragments idx) rx ∧
      (addFragment s idx rx = (s.setEntry idx (grown (s.fragments idx) rx),.queued) ∨
        ∃ first rest, (s.fragments idx).skbList ++ [rx] = first :: rest ∧
          (addFragment s idx rx = (s.setEntry idx {grown (s.fragments idx) rx with skbList := []},.dropUnusable) ∨
            addFragment s idx rx = (s.setEntry idx {grown (s.fragments idx) rx with skbList := []},.continue (join first rest)))) := by
  unfold addFragment
  dsimp only
  split
  · exact .inl rfl
  rename_i keyed
  split
  · exact .inl rfl
  rename_i next
  have passes : Passes (s.fragments idx) rx := by
    intro ccmp
    simp only [ccmp,Bool.true_and,decide_eq_true_eq,Bool.not_eq_true',Bool.not_eq_false,ne_eq,not_not] at keyed next
    exact ⟨keyed,next⟩
  refine .inr ⟨passes,?_⟩
  split
  · exact .inl rfl
  split
  · rename_i empty
    simp at empty
  · rename_i first rest queue
    refine .inr ⟨first,rest,queue,?_⟩
    split
    · exact .inl rfl
    · exact .inr rfl

theorem passes_follows (held : Holds entry parts) (ccmp : entry.ccmp = true) (passes : Passes entry part.rx) (sound : part.Sound) :
    ∀ last ∈ parts.getLast?, Follows last part := by
  intro last lastIn lastCounted counted
  obtain ⟨counts,positive⟩ := sound.counter counted
  apply next_pn_number _ positive
  rw [← held.lastPn ccmp last lastIn lastCounted,(passes ccmp).2,counts]

theorem passes_chain (held : Holds entry parts) (ccmp : entry.ccmp = true) (passes : Passes entry part.rx) (sound : part.Sound) :
    (parts ++ [part]).IsChain Follows := by
  refine List.isChain_append.mpr ⟨held.chain ccmp,.singleton part,?_⟩
  intro last lastIn _ nextIn
  cases nextIn
  exact passes_follows held ccmp passes sound last lastIn

theorem append_sound (held : Holds entry parts) (sound : part.Sound) : ∀ other ∈ parts ++ [part], other.Sound := by
  intro other otherIn
  rcases List.mem_append.mp otherIn with old | new
  · exact held.sound other old
  · cases List.mem_singleton.mp new
    exact sound

theorem append_head (filled : parts ≠ []) (part : Part) : (parts ++ [part]).head? = parts.head? := by
  cases parts with
  | nil => exact absurd rfl filled
  | cons => rfl

theorem grown_holds (held : Holds entry parts) (filled : parts ≠ []) (passes : Passes entry part.rx) (sound : part.Sound) :
    Holds (grown entry part.rx) (parts ++ [part]) := by
  constructor
  · simp [grown,held.queue]
  · exact append_sound held sound
  · rw [append_head filled]
    exact held.ccmp
  · intro ccmp _ lastIn counted
    change entry.ccmp = true at ccmp
    simp only [List.getLast?_append,List.getLast?_singleton,Option.some_or,Option.mem_some_iff] at lastIn
    subst lastIn
    simp only [grown,ccmp,if_true]
    exact (passes ccmp).2.trans (sound.counter counted).1
  · intro ccmp
    exact passes_chain held ccmp passes sound

theorem grown_whole (held : Holds entry parts) (filled : parts ≠ []) (passes : Passes entry part.rx) (sound : part.Sound)
    (queue : entry.skbList ++ [part.rx] = first :: rest) : Whole (parts ++ [part]) (join first rest) := by
  constructor
  · rw [← held.queue] at queue
    cases parts with
    | nil => exact absurd rfl filled
    | cons head tail =>
      simp only [List.map_cons,List.cons_append,List.cons.injEq] at queue
      refine ⟨head,tail ++ [part],rfl,?_⟩
      rw [← queue.1,← queue.2,List.map_append]
      rfl
  · exact append_sound held sound
  · rw [append_head filled]
    intro head headIn ccmp
    exact passes_chain held ((held.ccmp head headIn).trans ccmp) passes sound

theorem single_whole (sound : part.Sound) : Whole [part] part.rx.skb := by
  constructor
  · refine ⟨part,[],rfl,?_⟩
    simp [join]
  · intro _ otherIn
    cases List.mem_singleton.mp otherIn
    exact sound
  · intro _ _ _
    exact .singleton part

theorem single_holds (sound : part.Sound) (queue : entry.skbList = [part.rx])
    (ccmp : entry.ccmp = (part.rx.ccmpKey && hasProtected part.rx.fc)) (counts : entry.ccmp = true → entry.lastPn = part.rx.rxPn) :
    Holds entry [part] := by
  constructor
  · exact queue.symm
  · intro _ otherIn
    cases List.mem_singleton.mp otherIn
    exact sound
  · intro _ firstIn
    cases firstIn
    exact ccmp
  · intro on _ lastIn counted
    cases lastIn
    exact (counts on).trans (sound.counter counted).1
  · intro _
    exact .singleton part

theorem AllHold.add (held : AllHold s parts) (sound : part.Sound) :
    AllHold (if part.rx.ccmpKey && hasProtected part.rx.fc then
        (reassembleAdd s part.rx).1.setEntry (reassembleAdd s part.rx).2
          {(reassembleAdd s part.rx).1.fragments (reassembleAdd s part.rx).2 with ccmp := true,lastPn := part.rx.rxPn}
      else (reassembleAdd s part.rx).1) (update parts s.fragmentNext [part]) := by
  intro idx
  split
  · rename_i ccmp
    simp only [reassembleAdd,Sdata.setEntry]
    by_cases here : idx = s.fragmentNext
    · subst here
      simp only [update_self]
      exact single_holds sound rfl ccmp.symm fun _ => rfl
    · simp only [update_of_ne here]
      exact held idx
  · rename_i plain
    simp only [reassembleAdd,Sdata.setEntry]
    by_cases here : idx = s.fragmentNext
    · subst here
      simp only [update_self]
      exact single_holds sound rfl (Bool.eq_false_of_not_eq_true plain).symm nofun
    · simp only [update_of_ne here]
      exact held idx

theorem add_fragment_holds (held : AllHold s parts) (filled : parts idx ≠ []) (sound : part.Sound)
    (added : addFragment s idx part.rx = (after,result)) :
    AllHold after (match result with
      | .queued => update parts idx (parts idx ++ [part])
      | .continue _ => update parts idx []
      | _ => kept after parts) ∧
    ∀ m, result = .continue m → Whole (parts idx ++ [part]) m := by
  rcases add_fragment_cases s idx part.rx with refused | ⟨passes,queued | ⟨_,_,queue,lost | whole⟩⟩
  · cases added.symm.trans refused
    exact ⟨held.purged fun _ => .inl rfl,nofun⟩
  · cases added.symm.trans queued
    exact ⟨held.set (grown_holds (held idx) filled passes sound) idx,nofun⟩
  · cases added.symm.trans lost
    exact ⟨held.purged (set_purged s idx rfl),nofun⟩
  · cases added.symm.trans whole
    refine ⟨held.set (Holds.of_empty rfl) idx,?_⟩
    intro m handed
    cases handed
    exact grown_whole (held idx) filled passes sound queue

def alone (rx : Rx) : Bool := isCtl rx.fc || isMulticastEtherAddr rx.skb.hdr.addr1 || !hasMoreFrags rx.fc && rx.frag == 0

theorem defragment_alone (hz : UInt16) (s : Sdata) (single : alone rx = true) : rxHDefragment hz s rx = (s,.continue rx.skb) := by
  simp only [alone,Bool.or_eq_true] at single
  unfold rxHDefragment
  split
  · rfl
  rename_i notCtl
  split
  · rfl
  rename_i unicast
  rw [if_pos]
  rcases single with (ctl | multicast) | whole
  · exact absurd ctl notCtl
  · exact absurd multicast unicast
  · exact whole

theorem defragment_several (hz : UInt16) (s : Sdata) (several : alone rx = false) : rxHDefragment hz s rx =
      if !rx.linear then (s,.dropUnusable)
      else if rx.frag = 0 then
        (if rx.ccmpKey && hasProtected rx.fc then
            (reassembleAdd s rx).1.setEntry (reassembleAdd s rx).2
              {(reassembleAdd s rx).1.fragments (reassembleAdd s rx).2 with ccmp := true,lastPn := rx.rxPn}
          else (reassembleAdd s rx).1,.queued)
      else
        match reassembleFind hz rx fragmentMax s.fragmentNext s with
        | (s,none) => (s,.dropMonitor)
        | (s,some idx) => addFragment s idx rx := by
  simp only [alone,Bool.or_eq_false_iff] at several
  obtain ⟨⟨notCtl,unicast⟩,whole⟩ := several
  unfold rxHDefragment
  simp only [notCtl,unicast,whole,Bool.false_eq_true,if_false]
  split
  · rfl
  split
  · split
    · rfl
    · rfl
  · rfl

theorem matching_filled (held : AllHold s parts) (fits : Defragment.matching (s.fragments idx) rx = true) : parts idx ≠ [] := by
  obtain ⟨_,_,queue,_⟩ := Defragment.matching_cases fits
  intro empty
  have same := (held idx).queue
  rw [empty,queue] at same
  cases same

theorem defragment_holds (held : AllHold s parts) (sound : part.Sound) :
    AllHold (rxHDefragment hz s part.rx).1 (follow hz s parts part).1 ∧
    ∀ m, (rxHDefragment hz s part.rx).2 = .continue m → ∃ whole, (follow hz s parts part).2 = some whole ∧ Whole whole m := by
  cases single : alone part.rx with
  | true =>
    have followed : follow hz s parts part = (parts,some [part]) := if_pos single
    rw [defragment_alone hz s single,followed]
    refine ⟨held,?_⟩
    intro m handed
    cases handed
    exact ⟨[part],rfl,single_whole sound⟩
  | false =>
    have several : ¬(isCtl part.rx.fc || isMulticastEtherAddr part.rx.skb.hdr.addr1 ||
      !hasMoreFrags part.rx.fc && part.rx.frag == 0) = true := Bool.eq_false_iff.mp single
    unfold follow
    rw [defragment_several hz s single,if_neg several]
    by_cases split : (!part.rx.linear) = true
    · rw [if_pos split,if_pos split]
      exact ⟨held,nofun⟩
    rw [if_neg split,if_neg split]
    by_cases first : part.rx.frag = 0
    · rw [if_pos first,if_pos first]
      exact ⟨held.add sound,nofun⟩
    rw [if_neg first,if_neg first]
    have searched := held.purged (reassemble_find_purged hz part.rx fragmentMax s.fragmentNext s)
    cases got : reassembleFind hz part.rx fragmentMax s.fragmentNext s with
    | mk after found =>
      rw [got] at searched
      cases found with
      | none => exact ⟨searched,nofun⟩
      | some idx =>
        have filled := matching_filled searched (Defragment.reassemble_find_matching got)
        cases added : addFragment after idx part.rx with
        | mk final result =>
          obtain ⟨holds,whole⟩ := add_fragment_holds searched filled sound added
          dsimp only
          rw [added]
          cases result with
          | «continue» m => exact ⟨holds,fun m handed => ⟨_,rfl,whole m handed⟩⟩
          | queued | dropUnusable | dropMonitor => exact ⟨holds,nofun⟩

structure Traced.Good (t : Traced) : Prop where
  holds : AllHold t.world.fragments t.parts
  whole : ∀ out ∈ t.delivered, Whole out.1 out.2

theorem defragment_delivered {t : Traced} (good : t.Good) (sound : part.Sound)
    (handed : (rxHDefragment t.world.hz t.world.fragments part.rx).2 = .continue m) :
    ∃ whole, (t.defragment part).delivered = t.delivered ++ [(whole,m)] ∧ Whole whole m := by
  obtain ⟨whole,followed,fragments⟩ := (defragment_holds good.holds sound).2 m handed
  refine ⟨whole,?_,fragments⟩
  simp only [Traced.defragment,handed,followed]

theorem defragment_undelivered {t : Traced}
    (kept : ∀ m, (rxHDefragment t.world.hz t.world.fragments part.rx).2 ≠ .continue m) :
    (t.defragment part).delivered = t.delivered := by
  unfold Traced.defragment
  dsimp only
  split
  · rename_i m _ handed _
    exact absurd handed (kept m)
  · rfl

theorem defragment_good {t : Traced} (good : t.Good) (sound : part.Sound) : (t.defragment part).Good := by
  constructor
  · exact (defragment_holds good.holds sound).1
  by_cases handed : ∃ m, (rxHDefragment t.world.hz t.world.fragments part.rx).2 = .continue m
  · obtain ⟨m,handed⟩ := handed
    obtain ⟨whole,delivered,fragments⟩ := defragment_delivered good sound handed
    rw [delivered]
    intro out outIn
    rcases List.mem_append.mp outIn with old | new
    · exact good.whole out old
    · cases List.mem_singleton.mp new
      exact fragments
  · rw [defragment_undelivered (not_exists.mp handed)]
    exact good.whole

theorem decrypt_with_fragments (aead : Aead) (w : World) (f : RxFrame) (k : Nat) (key : Key) :
    (w.decryptWith aead f k key).1.fragments = w.fragments := by
  unfold World.decryptWith
  split
  · rfl
  split
  · rfl
  · rfl

theorem rx_h_decrypt_fragments (aead : Aead) (w : World) (f : RxFrame) : (w.rxHDecrypt aead f).1.fragments = w.fragments := by
  unfold World.rxHDecrypt
  split
  · rfl
  · rfl
  split
  · rfl
  · exact decrypt_with_fragments aead w f _ _

theorem rx_good (aead : Aead) {t : Traced} (good : t.Good) (f : RxFrame) : (t.rx aead f).Good := by
  have fragments := rx_h_decrypt_fragments aead t.world f
  unfold Traced.rx
  cases got : t.world.rxHDecrypt aead f with
  | mk world handed =>
    rw [got] at fragments
    have unchanged : Traced.Good {t with world := world} := by
      constructor
      · change AllHold world.fragments t.parts
        rw [fragments]
        exact good.holds
      · exact good.whole
    cases handed with
    | none => exact unchanged
    | some => exact defragment_good unchanged (rx_h_decrypt_sound aead got)

theorem step_good (aead : Aead) {t : Traced} (good : t.Good) (e : Event) : (t.step aead e).Good := by
  cases e with
  | rx f => exact rx_good aead good f
  | install | tables | taint | setRxSeq => exact ⟨good.holds,good.whole⟩
  | purge => exact ⟨fun _ => Holds.of_empty rfl,good.whole⟩

theorem run_good (aead : Aead) (good : t.Good) (events : List Event) : (run aead t events).Good := by
  induction events generalizing t with
  | nil => exact good
  | cons e events ih => exact ih (step_good aead good e)

def World.start (w : World) : Traced := ⟨w,fun _ => [],[]⟩

theorem start_good {w : World} (idle : ∀ idx, (w.fragments.fragments idx).skbList = []) : w.start.Good := by
  constructor
  · exact fun idx => Holds.of_empty (idle idx)
  · exact nofun

structure Continues (k : Nat × Suite) (a b : Part) : Prop where
  secured : hasProtected b.rx.fc = true
  verified : b.verified = some k
  number : b.number.number = a.number.number + 1

-- Only numbers of two fragments that CCMP checks here, with the header in the frame, are compared.
structure Given (k : Nat × Suite) (a b : Part) : Prop where
  secured : hasProtected b.rx.fc = true
  checked : b.checked = true
  key : b.key = some k
  number : k.2.isCcmp = false ∨ a.checked = false ∨ a.stripped = true ∨ b.stripped = true →
    b.number.number = a.number.number + 1

theorem counted_of_key {part : Part} (sound : part.Sound) (keyed : part.key = some k) (ccmp : k.2.isCcmp = true)
    (secured : hasProtected part.rx.fc = true) (checked : part.checked = true) (whole : part.stripped = false) : part.counted = true := by
  have ccmpKey := sound.ccmpKey
  rw [keyed,Option.any_some,ccmp] at ccmpKey
  simp [Part.counted,ccmpKey,secured,checked,whole]

theorem continues_iff (aSound : a.Sound) (bSound : b.Sound) (keyed : a.key = some k) (ciphered : k.2.cipher.isSome = true)
    (secured : hasProtected a.rx.fc = true) (follows : k.2.isCcmp = true → Follows a b) : Continues k a b ↔ Given k a b := by
  constructor
  · intro continues
    have key := bSound.verifiedKey k continues.verified
    constructor
    · exact continues.secured
    · exact (bSound.verifies k key ciphered continues.secured).mp continues.verified
    · exact key
    · intro _
      exact continues.number
  intro given
  constructor
  · exact given.secured
  · exact (bSound.verifies k given.key ciphered given.secured).mpr given.checked
  · by_cases unchecked : k.2.isCcmp = false ∨ a.checked = false ∨ a.stripped = true ∨ b.stripped = true
    · exact given.number unchecked
    · simp only [not_or,Bool.not_eq_true,Bool.not_eq_false] at unchecked
      obtain ⟨ccmp,checked,aWhole,bWhole⟩ := unchecked
      exact follows ccmp (counted_of_key aSound keyed ccmp secured checked aWhole)
        (counted_of_key bSound given.key ccmp given.secured given.checked bWhole)

theorem chain_iff (sound : ∀ part ∈ first :: rest, part.Sound) (keyed : first.key = some k) (ciphered : k.2.cipher.isSome = true)
    (secured : hasProtected first.rx.fc = true) (follows : k.2.isCcmp = true → (first :: rest).IsChain Follows) :
    (first :: rest).IsChain (Continues k) ↔ (first :: rest).IsChain (Given k) := by
  induction rest generalizing first with
  | nil => exact iff_of_true (.singleton first) (.singleton first)
  | cons next rest ih =>
    have pair : Continues k first next ↔ Given k first next :=
      continues_iff (sound first (by simp)) (sound next (by simp)) keyed ciphered secured
        fun ccmp => (List.isChain_cons_cons.mp (follows ccmp)).1
    rw [List.isChain_cons_cons,List.isChain_cons_cons,pair]
    refine and_congr_right ?_
    intro given
    refine ih ?_ given.key given.secured ?_
    · intro part partIn
      exact sound part (List.mem_cons_of_mem first partIn)
    · intro ccmp
      exact (List.isChain_cons_cons.mp (follows ccmp)).2

theorem defragment_protected (aead : Aead) (w : World) (idle : ∀ idx, (w.fragments.fragments idx).skbList = []) (events : List Event)
    (handed : (first :: rest,m) ∈ (run aead w.start events).delivered) (keyed : first.key = some k)
    (ciphered : k.2.cipher.isSome = true) (secured : hasProtected first.rx.fc = true) :
    m = join first.rx (rest.map Part.rx) ∧ ((first :: rest).IsChain (Continues k) ↔ (first :: rest).IsChain (Given k)) := by
  have whole := (run_good aead (start_good idle) events).whole _ handed
  constructor
  · obtain ⟨_,_,same,joined⟩ := whole.joined
    cases same
    exact joined
  · refine chain_iff whole.sound keyed ciphered secured ?_
    intro ccmp
    refine whole.chain first rfl ?_
    have ccmpKey := (whole.sound first (by simp)).ccmpKey
    rw [keyed,Option.any_some,ccmp] at ccmpKey
    rw [ccmpKey,secured]
    rfl

def sampleWorld (suite : Suite) : World :=
  ⟨100,[⟨suite,false,⟨fun _ => macAddr 0 0 0 0 0 0,0⟩⟩],[⟨[some 0],0,[]⟩],[],none,Defragment.quiet⟩

def sampleFrame (seqCtrl : UInt16) (moreFrags : Bool) (pn : Option UInt8) (body : List UInt8) : RxFrame where
  skb := ⟨⟨0x0008 ||| (if moreFrags then fctlMoreFrags else 0) ||| (if pn.isSome then fctlProtected else 0),macAddr 0 0 0 0 0 1,
    (macAddr 2 0 0 0 0 1),macAddr 2 0 0 0 0 9,seqCtrl,macAddr 0 0 0 0 0 0,0⟩,match pn with
      | some pn => [pn,0,0,0x20,0,0,0,0] ++ body ++ List.replicate 16 0
      | none => body⟩
  sta := some 0
  raMatch := true
  decrypted := pn.isSome
  ivStripped := false
  mmieKeyidx := none
  stale := none
  other := none
  strippedPn := macAddr 0 0 0 0 0 0
  pulled := true
  trimmed := true
  stack := fun _ => 0
  jiffies := 0
  tailroom := 100
  linear := true
  expanded := true

def sampleAead : Aead := ⟨fun _ _ data => (data,[]),fun _ _ _ _ => none⟩

def sampleRun (suite : Suite) (events : List Event) : List (List Part × Mpdu) := (run sampleAead (sampleWorld suite).start events).delivered

def protectedFragments : List Event :=
  [.rx (sampleFrame 0x0070 true (some 1) [1,2]),.rx (sampleFrame 0x0071 false (some 2) [3])]

def seenRun (suite : Suite) (events : List Event) : List (List (Bool × Option (Nat × Suite) × Nat)) :=
  (sampleRun suite events).map fun out => out.1.map fun part => (hasProtected part.rx.fc,part.verified,part.number.number)

theorem defragment_protected_sample : ∃ first second m, first.key = some (0,Suite.ccmp256) ∧
    m = join first.rx [second.rx] ∧
      ([first,second].IsChain (Continues (0,.ccmp256)) ↔ [first,second].IsChain (Given (0,.ccmp256))) := by
  have handed : ∃ first second m, ([first,second],m) ∈ (run sampleAead (sampleWorld .ccmp256).start protectedFragments).delivered ∧
      first.key = some (0,Suite.ccmp256) ∧ hasProtected first.rx.fc = true := ⟨_,_,_,.head _,rfl,rfl⟩
  obtain ⟨first,second,m,handed,keyed,secured⟩ := handed
  exact ⟨first,second,m,keyed,defragment_protected sampleAead (sampleWorld .ccmp256) (fun _ => rfl) protectedFragments handed keyed rfl secured⟩

-- The counter is one above the first fragment when a frame between has the next number, and the second is
-- not protected.
def mixedFragments : List Event :=
  [.rx (sampleFrame 0x0070 true (some 1) [1,2]),.rx (sampleFrame 0x0080 false (some 2) [3]),.rx (sampleFrame 0x0071 false none [6])]

theorem defragment_mixed :
    ¬ ∀ (aead : Aead) (w : World), (∀ idx, (w.fragments.fragments idx).skbList = []) → ∀ (events : List Event) (first : Part)
      (rest : List Part) (m : Mpdu) (k : Nat × Suite), (first :: rest,m) ∈ (run aead w.start events).delivered →
      first.key = some k → k.2.cipher.isSome = true → hasProtected first.rx.fc = true →
      (first :: rest).IsChain (Continues k) := by
  intro all
  have handed : ∃ first second m, ([first,second],m) ∈ (run sampleAead (sampleWorld .ccmp256).start mixedFragments).delivered ∧
      first.key = some (0,Suite.ccmp256) ∧ hasProtected first.rx.fc = true ∧ hasProtected second.rx.fc = false :=
    ⟨_,_,_,.tail _ (.head _),rfl,rfl,rfl⟩
  obtain ⟨first,second,m,handed,keyed,secured,plain⟩ := handed
  have chain := all sampleAead (sampleWorld .ccmp256) (fun _ => rfl) mixedFragments first [second] m (0,.ccmp256) handed keyed rfl secured
  have continues := (List.isChain_cons_cons.mp chain).1
  exact nomatch plain.symm.trans continues.secured

example : seenRun .ccmp256 [.rx (sampleFrame 0x0070 true (some 1) [1]),.install ⟨.ccmp256,false,⟨fun _ => macAddr 0 0 0 0 0 0,0⟩⟩,
    .tables [⟨[some 1],0,[]⟩] [] none,.rx (sampleFrame 0x0071 false (some 2) [6])] =
    [[(true,some (0,.ccmp256),1),(true,some (1,.ccmp256),2)]] := by decide

end Mac80211.DefragmentKeys

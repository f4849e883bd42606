import Mathlib.Data.List.Nodup

namespace Mac80211.Tdls

structure Channel where
  centerFreq : Nat

-- With what cfg80211 says of a frequency, of its number and of 20 MHz on a channel.
structure Wiphy where
  getChannel : Nat → Option Channel
  frequencyToChannel : Nat → Nat
  regCanBeacon : Channel → Bool

-- We may be active on the channel at the frequency.
def Wiphy.allowed (w : Wiphy) (freq : Nat) : Bool := (w.getChannel freq).any w.regCanBeacon

-- And what is in the buffer.
structure Scan where
  subbandCnt : UInt8
  chCnt : UInt8
  subbandStart : Nat
  skb : List UInt8

namespace Scan

def put (w : Wiphy) (s : Scan) : Scan := {s with
  subbandCnt := s.subbandCnt + 1
  chCnt := 0
  skb := s.skb ++ [UInt8.ofNat (w.frequencyToChannel s.subbandStart),s.chCnt]}

def close (w : Wiphy) (s : Scan) : Scan := if s.chCnt ≠ 0 then s.put w else s

def visit (w : Wiphy) (s : Scan) (i : Nat) : Scan :=
  let s := if s.chCnt = 0 then {s with subbandStart := i} else s
  if w.allowed i then {s with chCnt := s.chCnt + 1} else s.close w

end Scan

-- for (i = start; i <= end; i += spacing)
def grid (start stop spacing : Nat) : List Nat := (List.range ((stop - start) / spacing + 1)).map fun j => start + spacing * j

def addSubband (w : Wiphy) (skb : List UInt8) (start stop spacing : Nat) : Scan :=
  ((grid start stop spacing).foldl (Scan.visit w) ⟨0,0,0,skb⟩).close w

def eidSupportedChannels : UInt8 := 36

def addSuppChannels (w : Wiphy) (skb : List UInt8) : List UInt8 :=
  let two := addSubband w (skb ++ [eidSupportedChannels,0]) 2412 2472 5
  let five := addSubband w two.skb 5000 5825 20
  five.skb.set (skb.length + 1) (2 * (two.subbandCnt + five.subbandCnt))

def pairs : List UInt8 → List (UInt8 × UInt8)
  | first :: count :: rest => (first,count) :: pairs rest
  | _ => []

-- Channels apart by step, from a number on.
def denoted (base step : Nat) (ps : List (UInt8 × UInt8)) : List Nat :=
  ps.flatMap fun p => (List.range p.2.toNat).map fun k => base + 5 * (p.1.toNat + step * k)

-- After the bytes of skb, its pairs for the two bands.
def body (w : Wiphy) (skb : List UInt8) : List UInt8 := (addSuppChannels w skb).drop (skb.length + 2)

def twoPairs (w : Wiphy) (skb : List UInt8) : List (UInt8 × UInt8) :=
  (pairs (body w skb)).take (addSubband w (skb ++ [eidSupportedChannels,0]) 2412 2472 5).subbandCnt.toNat

def fivePairs (w : Wiphy) (skb : List UInt8) : List (UInt8 × UInt8) :=
  (pairs (body w skb)).drop (addSubband w (skb ++ [eidSupportedChannels,0]) 2412 2472 5).subbandCnt.toNat

def inBands (freq : Nat) : Prop := 2412 ≤ freq ∧ freq ≤ 2472 ∨ 5000 ≤ freq ∧ freq ≤ 5825

structure Lists (w : Wiphy) (skb : List UInt8) : Prop where
  length : (addSuppChannels w skb)[skb.length + 1]? = some (UInt8.ofNat (body w skb).length) ∧ (body w skb).length < 256
  once : (denoted 2407 1 (twoPairs w skb) ++ denoted 5000 4 (fivePairs w skb)).Nodup
  exact : ∀ freq, freq ∈ denoted 2407 1 (twoPairs w skb) ++ denoted 5000 4 (fivePairs w skb) ↔ inBands freq ∧ w.allowed freq = true

def OnGrid (w : Wiphy) : Prop := ∀ freq, w.allowed freq = true →
  (2412 ≤ freq ∧ freq ≤ 2472 → 5 ∣ freq - 2412) ∧ (5000 ≤ freq ∧ freq ≤ 5825 → 20 ∣ freq - 5000)

-- The numbers count steps of 5 MHz in both bands.
structure Numbered (w : Wiphy) : Prop where
  two : ∀ n, 1 ≤ n → n ≤ 13 → w.frequencyToChannel (2407 + 5 * n) = n
  five : ∀ n, n ≤ 165 → w.frequencyToChannel (5000 + 5 * n) = n

def bytes (ps : List (UInt8 × UInt8)) : List UInt8 := ps.flatMap fun p => [p.1,p.2]

section pairs

theorem pairs_bytes (ps : List (UInt8 × UInt8)) : pairs (bytes ps) = ps := by
  induction ps with
  | nil => rfl
  | cons p ps ih => exact congrArg (p :: ·) ih

theorem bytes_append (ps qs : List (UInt8 × UInt8)) : bytes (ps ++ qs) = bytes ps ++ bytes qs := List.flatMap_append

theorem length_bytes (ps : List (UInt8 × UInt8)) : (bytes ps).length = 2 * ps.length := by
  induction ps with
  | nil => rfl
  | cons p ps ih =>
    simp only [bytes,List.flatMap_cons,List.length_append,List.length_cons,List.length_nil] at ih ⊢
    omega

theorem denoted_append (ps qs : List (UInt8 × UInt8)) : denoted base step (ps ++ qs) = denoted base step ps ++ denoted base step qs :=
  List.flatMap_append

end pairs

section scan

variable {w : Wiphy} {base step : Nat} {skb : List UInt8}

def ReadsBack (w : Wiphy) (base freq : Nat) : Prop := base + 5 * (UInt8.ofNat (w.frequencyToChannel freq)).toNat = freq

structure Scanned (w : Wiphy) (base step : Nat) (skb : List UInt8) (seen : List Nat) (next : Nat) (ps : List (UInt8 × UInt8)) (s : Scan) : Prop where
  skb : s.skb = skb ++ bytes ps
  subbands : s.subbandCnt.toNat = ps.length
  small : ps.length + s.chCnt.toNat ≤ seen.length
  found : denoted base step ps ++ (List.range s.chCnt.toNat).map (fun k => s.subbandStart + 5 * step * k) = seen.filter w.allowed
  going : s.chCnt ≠ 0 → ReadsBack w base s.subbandStart ∧ s.subbandStart + 5 * step * s.chCnt.toNat = next

theorem Scanned.close (scanned : Scanned w base step skb seen i ps s) (few : seen.length < 255) :
    ∃ qs, (s.close w).skb = skb ++ bytes qs ∧ (s.close w).subbandCnt.toNat = qs.length ∧ qs.length ≤ seen.length ∧
      denoted base step qs = seen.filter w.allowed ∧ (s.close w).chCnt = 0 := by
  have small := scanned.small
  by_cases begun : s.chCnt ≠ 0
  · have positive : 0 < s.chCnt.toNat := Nat.pos_of_ne_zero fun zero => begun (UInt8.toNat_inj.mp zero)
    obtain ⟨back,_⟩ := scanned.going begun
    unfold Scan.close
    rw [if_pos begun]
    refine ⟨ps ++ [(UInt8.ofNat (w.frequencyToChannel s.subbandStart),s.chCnt)],?_,?_,?_,?_,rfl⟩
    · rw [bytes_append,← List.append_assoc,← scanned.skb]
      rfl
    · show (s.subbandCnt + 1).toNat = _
      rw [UInt8.toNat_add,scanned.subbands,List.length_append,List.length_singleton]
      exact Nat.mod_eq_of_lt (by simp; omega)
    · rw [List.length_append,List.length_singleton]
      omega
    · rw [← scanned.found,denoted_append]
      congr 1
      unfold denoted
      rw [List.flatMap_singleton]
      apply List.map_congr_left
      intro k _
      rw [Nat.mul_add,← Nat.add_assoc,back,Nat.mul_assoc]
  · have idle := not_not.mp begun
    unfold Scan.close
    rw [if_neg begun]
    refine ⟨ps,scanned.skb,scanned.subbands,by omega,?_,idle⟩
    rw [← scanned.found,idle]
    simp

theorem Scanned.visit (scanned : Scanned w base step skb seen i ps s) (few : seen.length < 255) (back : ReadsBack w base i) :
    ∃ qs, Scanned w base step skb (seen ++ [i]) (i + 5 * step) qs (s.visit w i) := by
  -- The range begins here, or the one that has begun goes on up to here.
  obtain ⟨t,started,same,at_,reads⟩ : ∃ t, (if s.chCnt = 0 then {s with subbandStart := i} else s) = t ∧
      Scanned w base step skb seen i ps t ∧ t.subbandStart + 5 * step * t.chCnt.toNat = i ∧ ReadsBack w base t.subbandStart := by
    refine ⟨_,rfl,?_⟩
    split
    · rename_i idle
      refine ⟨⟨scanned.skb,scanned.subbands,scanned.small,?_,fun begun => absurd idle begun⟩,?_,back⟩
      · rw [← scanned.found]
        simp [idle]
      · simp [idle]
    · rename_i begun
      exact ⟨scanned,(scanned.going begun).2,(scanned.going begun).1⟩
  have small := same.small
  unfold Scan.visit
  rw [started]
  split
  · rename_i ok
    have grown : (t.chCnt + 1).toNat = t.chCnt.toNat + 1 := by
      exact Nat.mod_eq_of_lt (by simp; omega)
    refine ⟨ps,same.skb,same.subbands,?_,?_,fun _ => ⟨reads,?_⟩⟩
    · rw [grown,List.length_append,List.length_singleton]
      omega
    · rw [grown,List.range_succ,List.map_append,← List.append_assoc,same.found,List.filter_append]
      simp [at_,ok]
    · rw [grown,Nat.mul_add,← Nat.add_assoc,at_,Nat.mul_one]
  · rename_i refused
    obtain ⟨qs,written,subbands,_,found,idle⟩ := same.close few
    refine ⟨qs,written,subbands,?_,?_,fun begun => absurd idle begun⟩
    · rw [idle,List.length_append]
      simp
      omega
    · rw [found,idle,List.filter_append]
      simp [refused]

theorem scanned_first (start n : Nat) (few : n ≤ 255) (back : ∀ j < n, ReadsBack w base (start + 5 * step * j)) :
    ∃ ps, Scanned w base step skb ((List.range n).map fun j => start + 5 * step * j) (start + 5 * step * n) ps
      (((List.range n).map fun j => start + 5 * step * j).foldl (Scan.visit w) ⟨0,0,0,skb⟩) := by
  induction n with
  | zero => exact ⟨[],by simp [bytes],rfl,by simp,rfl,fun begun => absurd rfl begun⟩
  | succ n ih =>
    obtain ⟨_,scanned⟩ := ih (by omega) fun j low => back j (by omega)
    rw [List.range_succ,List.map_append,List.foldl_append,Nat.mul_succ,← Nat.add_assoc]
    obtain ⟨qs,next⟩ := scanned.visit (by simp; omega) (back n (by omega))
    exact ⟨qs,next⟩

theorem addSubband_spec (w : Wiphy) (skb : List UInt8) {start stop : Nat} (few : (stop - start) / (5 * step) < 254)
    (back : ∀ j < (stop - start) / (5 * step) + 1, ReadsBack w base (start + 5 * step * j)) :
    ∃ ps, (addSubband w skb start stop (5 * step)).skb = skb ++ bytes ps ∧
      (addSubband w skb start stop (5 * step)).subbandCnt.toNat = ps.length ∧ ps.length ≤ (stop - start) / (5 * step) + 1 ∧
      denoted base step ps = (grid start stop (5 * step)).filter w.allowed := by
  obtain ⟨_,scanned⟩ := @scanned_first w base step skb start _ (by omega) back
  have length : ((List.range ((stop - start) / (5 * step) + 1)).map fun j => start + 5 * step * j).length = (stop - start) / (5 * step) + 1 := by simp
  obtain ⟨qs,written,subbands,few',found,_⟩ := scanned.close (by omega)
  exact ⟨qs,written,subbands,Nat.le_trans few' (Nat.le_of_eq length),found⟩

end scan

section element

theorem reads_back (base : Nat) (freq : Nat) (n : Nat) (number : w.frequencyToChannel (base + 5 * n) = n) (few : n < 256) (at_ : freq = base + 5 * n) :
    ReadsBack w base freq := by
  unfold ReadsBack
  rw [at_,number,UInt8.toNat_ofNat_of_lt' few]

theorem addSuppChannels_spec (numbered : Numbered w) (skb : List UInt8) : ∃ two five : List (UInt8 × UInt8),
    twoPairs w skb = two ∧ fivePairs w skb = five ∧
      (addSuppChannels w skb)[skb.length + 1]? = some (UInt8.ofNat (body w skb).length) ∧ (body w skb).length < 256 ∧
      denoted 2407 1 two = (grid 2412 2472 5).filter w.allowed ∧ denoted 5000 4 five = (grid 5000 5825 20).filter w.allowed := by
  have backTwo : ∀ j < 13, ReadsBack w 2407 (2412 + 5 * 1 * j) := fun j low =>
    reads_back 2407 _ (j + 1) (numbered.two (j + 1) (by omega) (by omega)) (by omega) (by omega)
  have backFive : ∀ j < 42, ReadsBack w 5000 (5000 + 5 * 4 * j) := fun j low =>
    reads_back 5000 _ (4 * j) (numbered.five (4 * j) (by omega)) (by omega) (by omega)
  obtain ⟨two,writtenTwo,subbandsTwo,_,foundTwo⟩ :=
    @addSubband_spec 2407 1 w (skb ++ [eidSupportedChannels,0]) 2412 2472 (by decide) backTwo
  obtain ⟨five,writtenFive,subbandsFive,_,foundFive⟩ :=
    @addSubband_spec 5000 4 w (skb ++ [eidSupportedChannels,0] ++ bytes two) 5000 5825 (by decide) backFive
  have whole : addSuppChannels w skb = (skb ++ [eidSupportedChannels,0] ++ bytes two ++ bytes five).set (skb.length + 1)
      (UInt8.ofNat (2 * (two.length + five.length))) := by
    unfold addSuppChannels
    dsimp only
    rw [show addSubband w (skb ++ [eidSupportedChannels,0]) 2412 2472 5 = addSubband w (skb ++ [eidSupportedChannels,0]) 2412 2472 (5 * 1) from rfl,
      writtenTwo,show addSubband w (skb ++ [eidSupportedChannels,0] ++ bytes two) 5000 5825 20 =
        addSubband w (skb ++ [eidSupportedChannels,0] ++ bytes two) 5000 5825 (5 * 4) from rfl,writtenFive]
    congr 1
    apply UInt8.toNat_inj.mp
    rw [UInt8.toNat_mul,UInt8.toNat_add,subbandsTwo,subbandsFive,UInt8.toNat_ofNat']
    simp
  have rest : body w skb = bytes (two ++ five) := by
    unfold body
    rw [whole,List.drop_set_of_lt (by omega),List.append_assoc,← bytes_append]
    exact List.drop_left' (by simp)
  refine ⟨two,five,?_,?_,?_,?_,foundTwo,foundFive⟩
  · unfold twoPairs
    rw [rest,pairs_bytes]
    exact (congrArg (fun n => (two ++ five).take n) subbandsTwo).trans List.take_left
  · unfold fivePairs
    rw [rest,pairs_bytes]
    exact (congrArg (fun n => (two ++ five).drop n) subbandsTwo).trans List.drop_left
  · rw [rest,length_bytes,List.length_append,whole,List.getElem?_set_self (by simp)]
  · rw [rest,length_bytes,List.length_append]
    omega

theorem mem_grid (positive : 0 < spacing) (ordered : start ≤ stop) (freq : Nat) :
    freq ∈ grid start stop spacing ↔ start ≤ freq ∧ freq ≤ stop ∧ spacing ∣ freq - start := by
  unfold grid
  rw [List.mem_map]
  constructor
  · rintro ⟨j,low,rfl⟩
    have low := Nat.le_of_lt_succ (List.mem_range.mp low)
    have within := (Nat.le_div_iff_mul_le positive).mp low
    rw [Nat.mul_comm] at within
    refine ⟨by omega,by omega,?_⟩
    rw [Nat.add_sub_cancel_left]
    exact Nat.dvd_mul_right ..
  · rintro ⟨_,_,j,_⟩
    refine ⟨j,List.mem_range.mpr (Nat.lt_succ_of_le ((Nat.le_div_iff_mul_le positive).mpr ?_)),by omega⟩
    rw [Nat.mul_comm]
    omega

theorem grid_nodup (positive : 0 < spacing) : (grid start stop spacing).Nodup :=
  List.nodup_range.map fun _ _ same => Nat.eq_of_mul_eq_mul_left positive (Nat.add_left_cancel same)

theorem supp_channels_exact_iff (numbered : Numbered w) (skb : List UInt8) : Lists w skb ↔ OnGrid w := by
  obtain ⟨two,five,eqTwo,eqFive,length,short,foundTwo,foundFive⟩ := addSuppChannels_spec numbered skb
  have listed : ∀ freq, freq ∈ denoted 2407 1 (twoPairs w skb) ++ denoted 5000 4 (fivePairs w skb) ↔
      (2412 ≤ freq ∧ freq ≤ 2472 ∧ 5 ∣ freq - 2412 ∨ 5000 ≤ freq ∧ freq ≤ 5825 ∧ 20 ∣ freq - 5000) ∧ w.allowed freq = true := by
    intro freq
    rw [eqTwo,eqFive,foundTwo,foundFive,List.mem_append,List.mem_filter,List.mem_filter,mem_grid (by decide) (by decide),
      mem_grid (by decide) (by decide),or_and_right]
  constructor
  · intro lists freq allowed
    constructor
    · intro two
      rcases ((listed freq).mp ((lists.exact freq).mpr ⟨.inl two,allowed⟩)).1 with ⟨_,_,on⟩ | ⟨low,_⟩
      · exact on
      · exact absurd (Nat.le_trans low two.2) (by decide)
    · intro five
      rcases ((listed freq).mp ((lists.exact freq).mpr ⟨.inr five,allowed⟩)).1 with ⟨_,high,_⟩ | ⟨_,_,on⟩
      · exact absurd (Nat.le_trans five.1 high) (by decide)
      · exact on
  intro onGrid
  refine ⟨⟨length,short⟩,?_,fun freq => (listed freq).trans ⟨?_,?_⟩⟩
  · rw [eqTwo,eqFive,foundTwo,foundFive]
    refine List.Nodup.append ((grid_nodup (by decide)).filter _) ((grid_nodup (by decide)).filter _) ?_
    intro freq two five
    have two := (mem_grid (by decide) (by decide) freq).mp (List.mem_filter.mp two).1
    have five := (mem_grid (by decide) (by decide) freq).mp (List.mem_filter.mp five).1
    omega
  · rintro ⟨⟨low,high,_⟩ | ⟨low,high,_⟩,allowed⟩
    · exact ⟨.inl ⟨low,high⟩,allowed⟩
    · exact ⟨.inr ⟨low,high⟩,allowed⟩
  · rintro ⟨⟨low,high⟩ | ⟨low,high⟩,allowed⟩
    · exact ⟨.inl ⟨low,high,(onGrid freq allowed).1 ⟨low,high⟩⟩,allowed⟩
    · exact ⟨.inr ⟨low,high,(onGrid freq allowed).2 ⟨low,high⟩⟩,allowed⟩

end element

def frequencyToChannel (freq : Nat) : Nat := if freq = 2484 then 14 else if freq < 2484 then (freq - 2407) / 5 else (freq - 5000) / 5

def knows (freqs : List Nat) : Wiphy := ⟨fun freq => if freq ∈ freqs then some ⟨freq⟩ else none,frequencyToChannel,fun _ => true⟩

theorem knows_numbered (freqs : List Nat) : Numbered (knows freqs) := by
  constructor <;> intros <;> unfold knows frequencyToChannel <;> grind

theorem supp_channels_exact_sample : Lists (knows [2412,2417,2437,5180,5200]) [] := by
  refine (supp_channels_exact_iff (knows_numbered _) []).mpr fun freq allowed => ?_
  have known : freq ∈ [2412,2417,2437,5180,5200] := by
    by_contra out
    have off : (knows [2412,2417,2437,5180,5200]).getChannel freq = none := if_neg out
    rw [Wiphy.allowed,off] at allowed
    cases allowed
  simp only [List.mem_cons,List.not_mem_nil,or_false] at known
  rcases known with rfl | rfl | rfl | rfl | rfl <;> decide

theorem channel_149_lost : ¬Lists (knows [5745]) [] := by
  intro lists
  have there := (lists.exact 5745).mpr ⟨.inr (by decide),by decide⟩
  revert there
  decide +kernel

end Mac80211.Tdls

import Mac80211.Tim
import Mac80211.Tlv
import Mathlib.Data.List.GetD
import Mathlib.Data.Nat.ModEq

namespace Mac80211.Tim
open PowerSave (IfType)
open Tlv (put store store_replaces)

structure Ps where
  numStaPs : Int
  tim : Bitmap
  bcBuf : List PowerSave.Skb
  dtimCount : Int
  dtimBcMc : Bool

def eidTim : UInt8 := 5
def maxTimLen : Nat := 251

-- For 2008 bits, on a little endian machine.
def bitmapEmpty (tim : Bitmap) : Bool := (List.range maxTimLen).all fun i => byte tim i == 0

def findN1 (tim : Bitmap) : Nat := ((List.range maxTimLen).find? fun i => byte tim i != 0).elim 0 fun i => i &&& 0xfe
def findN2 (tim : Bitmap) (n1 : Nat) : Nat :=
  (((List.range' n1 (maxTimLen - n1)).reverse).find? fun i => byte tim i != 0).getD n1

def countDown (dtimPeriod : UInt8) (dtimCount : Int) : Int :=
  if dtimCount == 0 then dtimPeriod.toNat - 1 else dtimCount - 1

def beaconAddTim (ps : Ps) (dtimPeriod : UInt8) (fresh : Nat → UInt8) (skb : List UInt8) (isTemplate : Bool) :
    Option (Ps × List UInt8) := do
  let haveBits := decide (0 < ps.numStaPs) && !bitmapEmpty ps.tim
  let dtimCount := if isTemplate then ps.dtimCount else countDown dtimPeriod ps.dtimCount
  let tim := skb.length
  let skb ← store (put fresh skb 6) tim [eidTim,4,UInt8.ofInt dtimCount,dtimPeriod]
  let group := dtimCount == 0 && !ps.bcBuf.isEmpty
  let aid0 : UInt8 := if group then 1 else 0
  let ps := {ps with dtimCount := dtimCount,dtimBcMc := group}
  if haveBits then
    let n1 := findN1 ps.tim
    let n2 := findN2 ps.tim n1
    let skb ← store skb (tim + 4) [UInt8.ofNat n1 ||| aid0]
    let skb ← store (put fresh skb (n2 - n1)) (tim + 5) ((List.range' n1 (n2 - n1 + 1)).map (byte ps.tim))
    let skb ← store skb (tim + 1) [UInt8.ofNat (n2 - n1 + 4)]
    some (ps,skb)
  else
    let skb ← store skb (tim + 4) [aid0,0]
    some (ps,skb)

-- The partial virtual bitmap begins at the offset in the bitmap control; outside of it is zero.
structure Traffic where
  group : Bool
  bytes : Nat → UInt8

def decode : List UInt8 → Option Traffic
  | id :: len :: _ :: _ :: control :: bitmap =>
    if id = eidTim ∧ len.toNat = bitmap.length + 3 then
      let offset := (control &&& 0xfe).toNat
      some ⟨control &&& 1 != 0,fun j => if offset ≤ j then bitmap.getD (j - offset) 0 else 0⟩
    else none
  | _ => none

section window
variable {tim : Bitmap}

theorem byte_outside (outside : maxTimLen ≤ i) : byte tim i = 0 := by
  have beyond : tim[i]? = none := Vector.getElem?_eq_none (show 251 ≤ i from outside)
  unfold byte
  rw [beyond]
  rfl

theorem empty_byte (empty : bitmapEmpty tim = true) (i : Nat) : byte tim i = 0 := by
  by_cases inside : i < maxTimLen
  · exact beq_iff_eq.mp (List.all_eq_true.mp empty i (List.mem_range.mpr inside))
  · exact byte_outside (by omega)

theorem findN1_below (set : byte tim i ≠ 0) : findN1 tim ≤ i := by
  unfold findN1
  cases found : (List.range maxTimLen).find? fun i => byte tim i != 0 with
  | none => exact Nat.zero_le i
  | some first =>
    have low : first &&& 0xfe ≤ first := Nat.and_le_left
    by_contra beyond
    have before : i < first := Nat.lt_of_lt_of_le (Nat.lt_of_not_le beyond) low
    obtain ⟨_,k,_,here,none_before⟩ := List.find?_eq_some_iff_getElem.mp found
    rw [List.getElem_range] at here
    have unset := none_before i (here ▸ before)
    simp [set] at unset

theorem findN1_small (tim : Bitmap) : findN1 tim < maxTimLen := by
  unfold findN1
  cases found : (List.range maxTimLen).find? fun i => byte tim i != 0 with
  | none => decide
  | some => exact Nat.lt_of_le_of_lt Nat.and_le_left (List.mem_range.mp (List.mem_of_find?_eq_some found))

theorem findN1_even (tim : Bitmap) : findN1 tim &&& 0xfe = findN1 tim := by
  unfold findN1
  cases (List.range maxTimLen).find? fun i => byte tim i != 0 with
  | none => rfl
  | some first =>
    change first &&& 0xfe &&& 0xfe = first &&& 0xfe
    rw [Nat.and_assoc,Nat.and_self]

theorem findN2_above (low : n1 ≤ i) (set : byte tim i ≠ 0) : i ≤ findN2 tim n1 := by
  have inside : i < maxTimLen := by
    by_contra outside
    exact set (byte_outside (by omega))
  unfold findN2
  have member : i ∈ (List.range' n1 (maxTimLen - n1)).reverse := by
    rw [List.mem_reverse,List.mem_range'_1]
    omega
  have wanted : (byte tim i != 0) = true := bne_iff_ne.mpr set
  have some_found : (((List.range' n1 (maxTimLen - n1)).reverse).find? fun i => byte tim i != 0).isSome = true :=
    List.find?_isSome.mpr ⟨i,member,wanted⟩
  obtain ⟨last,found⟩ := Option.isSome_iff_exists.mp some_found
  rw [found]
  change i ≤ last
  obtain ⟨_,k,_,here,none_before⟩ := List.find?_eq_some_iff_getElem.mp found
  by_contra beyond
  have place : maxTimLen - n1 - 1 - (i - n1) < k := by
    rw [List.getElem_reverse,List.getElem_range'] at here
    simp only [List.length_range'] at here
    omega
  have unset := none_before (maxTimLen - n1 - 1 - (i - n1)) place
  rw [List.getElem_reverse,List.getElem_range'] at unset
  simp only [List.length_range',Nat.one_mul] at unset
  have same : n1 + (maxTimLen - n1 - 1 - (maxTimLen - n1 - 1 - (i - n1))) = i := by omega
  rw [same] at unset
  simp [set] at unset

theorem findN2_window (low : n1 < maxTimLen) : n1 ≤ findN2 tim n1 ∧ findN2 tim n1 < maxTimLen := by
  unfold findN2
  cases found : ((List.range' n1 (maxTimLen - n1)).reverse).find? fun i => byte tim i != 0 with
  | none => exact ⟨Nat.le_refl n1,low⟩
  | some last =>
    have member := List.mem_of_find?_eq_some found
    rw [List.mem_reverse,List.mem_range'_1] at member
    change n1 ≤ last ∧ last < maxTimLen
    omega

end window

section element

def timElement (dtimCount : Int) (dtimPeriod control : UInt8) (bitmap : List UInt8) : List UInt8 :=
  [eidTim,UInt8.ofNat (bitmap.length + 3),UInt8.ofInt dtimCount,dtimPeriod,control] ++ bitmap

def window (tim : Bitmap) : List UInt8 :=
  (List.range' (findN1 tim) (findN2 tim (findN1 tim) - findN1 tim + 1)).map (byte tim)

def Ps.counted (ps : Ps) (dtimPeriod : UInt8) (isTemplate : Bool) : Int :=
  if isTemplate then ps.dtimCount else countDown dtimPeriod ps.dtimCount

def Ps.group (ps : Ps) (dtimPeriod : UInt8) (isTemplate : Bool) : Bool :=
  ps.counted dtimPeriod isTemplate == 0 && !ps.bcBuf.isEmpty

def Ps.sent (ps : Ps) (dtimPeriod : UInt8) (isTemplate : Bool) : Ps :=
  {ps with dtimCount := ps.counted dtimPeriod isTemplate,dtimBcMc := ps.group dtimPeriod isTemplate}

def Ps.element (ps : Ps) (dtimPeriod : UInt8) (isTemplate : Bool) : List UInt8 :=
  let aid0 : UInt8 := if ps.group dtimPeriod isTemplate then 1 else 0
  if decide (0 < ps.numStaPs) && !bitmapEmpty ps.tim then
    timElement (ps.counted dtimPeriod isTemplate) dtimPeriod (UInt8.ofNat (findN1 ps.tim) ||| aid0) (window ps.tim)
  else timElement (ps.counted dtimPeriod isTemplate) dtimPeriod aid0 [0]

theorem beaconAddTim_eq (ps : Ps) (dtimPeriod : UInt8) (fresh : Nat → UInt8) (skb : List UInt8) (isTemplate : Bool) :
    beaconAddTim ps dtimPeriod fresh skb isTemplate =
      some (ps.sent dtimPeriod isTemplate,skb ++ ps.element dtimPeriod isTemplate) := by
  unfold beaconAddTim Ps.sent Ps.element Ps.group
  generalize counted : ps.counted dtimPeriod isTemplate = count
  unfold Ps.counted at counted
  dsimp only
  rw [counted]
  generalize shown : UInt8.ofInt count = dtimCount
  generalize (if (count == 0 && !ps.bcBuf.isEmpty) = true then (1 : UInt8) else 0) = aid0
  have header : store (put fresh skb 6) skb.length [eidTim,4,dtimCount,dtimPeriod] =
      some (skb ++ ([eidTim,4,dtimCount,dtimPeriod] ++ [fresh 4,fresh 5])) :=
    store_replaces skb [fresh 0,fresh 1,fresh 2,fresh 3] _ [fresh 4,fresh 5] rfl rfl
  rw [header,Option.bind_eq_bind,Option.bind_some]
  have fourth : (skb ++ [eidTim,4,dtimCount,dtimPeriod]).length = skb.length + 4 := by simp
  have fifth : ∀ control, (skb ++ [eidTim,4,dtimCount,dtimPeriod,control]).length = skb.length + 5 := by simp
  have first : (skb ++ [eidTim]).length = skb.length + 1 := by simp
  split
  · generalize UInt8.ofNat (findN1 ps.tim) ||| aid0 = control
    have extra : (window ps.tim).length = findN2 ps.tim (findN1 ps.tim) - findN1 ps.tim + 1 := by simp [window]
    rw [← window]
    generalize findN2 ps.tim (findN1 ps.tim) - findN1 ps.tim = extraLen at *
    have controlled : store (skb ++ ([eidTim,4,dtimCount,dtimPeriod] ++ [fresh 4,fresh 5])) (skb.length + 4) [control] =
        some (skb ++ [eidTim,4,dtimCount,dtimPeriod,control] ++ [fresh 5]) := by
      have written := store_replaces (skb ++ [eidTim,4,dtimCount,dtimPeriod]) [fresh 4] [control] [fresh 5] fourth rfl
      simpa using written
    rw [controlled,Option.bind_some]
    have room : store (put fresh (skb ++ [eidTim,4,dtimCount,dtimPeriod,control] ++ [fresh 5])
          extraLen) (skb.length + 5) (window ps.tim) =
        some (skb ++ [eidTim,4,dtimCount,dtimPeriod,control] ++ window ps.tim) := by
      have written := store_replaces (skb ++ [eidTim,4,dtimCount,dtimPeriod,control])
        (fresh 5 :: (List.range extraLen).map fresh) (window ps.tim) [] (fifth control)
        (by simp [extra])
      simpa [put] using written
    rw [room,Option.bind_some]
    have lengthened : store (skb ++ [eidTim,4,dtimCount,dtimPeriod,control] ++ window ps.tim) (skb.length + 1)
          [UInt8.ofNat (extraLen + 4)] =
        some (skb ++ timElement count dtimPeriod control (window ps.tim)) := by
      have total : extraLen + 4 = (window ps.tim).length + 3 := by rw [extra]
      have written := store_replaces (skb ++ [eidTim]) [4] [UInt8.ofNat ((window ps.tim).length + 3)]
        ([dtimCount,dtimPeriod,control] ++ window ps.tim) first rfl
      rw [total]
      simpa [timElement,shown] using written
    rw [lengthened,Option.bind_some]
  · have ended : store (skb ++ ([eidTim,4,dtimCount,dtimPeriod] ++ [fresh 4,fresh 5])) (skb.length + 4) [aid0,0] =
        some (skb ++ timElement count dtimPeriod aid0 [0]) := by
      have written := store_replaces (skb ++ [eidTim,4,dtimCount,dtimPeriod]) [fresh 4,fresh 5] [aid0,0] [] fourth rfl
      simpa [timElement,shown] using written
    rw [ended,Option.bind_some]

theorem window_short (tim : Bitmap) : (window tim).length < 252 := by
  obtain ⟨_,high⟩ := @findN2_window tim _ (findN1_small tim)
  unfold maxTimLen at high
  unfold window
  rw [List.length_map,List.length_range']
  omega

theorem control_group (small : n < 256) (even : n &&& 0xfe = n) (group : Bool) :
    ((UInt8.ofNat n ||| if group then 1 else 0) &&& 0xfe).toNat = n ∧
      ((UInt8.ofNat n ||| if group then 1 else 0) &&& 1 != 0) = group := by
  have offset : UInt8.ofNat n &&& 0xfe = UInt8.ofNat n := by
    have masked := congrArg UInt8.ofNat even
    rwa [UInt8.ofNat_and] at masked
  have unset : UInt8.ofNat n &&& 1 = 0 := by
    rw [← offset,UInt8.and_assoc]
    exact UInt8.and_zero
  have low : (UInt8.ofNat n).toNat = n := by
    rw [UInt8.toNat_ofNat']
    omega
  have distributes : ∀ a b c : UInt8, (a ||| b) &&& c = (a &&& c) ||| (b &&& c) := fun a b c =>
    UInt8.toNat_inj.mp (Nat.and_or_distrib_right a.toNat b.toNat c.toNat)
  rw [distributes,distributes,offset,unset]
  cases group with
  | false | true => exact ⟨by simp [low],by decide⟩

theorem decode_element (count : Int) (dtimPeriod control : UInt8) (short : bitmap.length < 252) :
    decode (timElement count dtimPeriod control bitmap) = some ⟨control &&& 1 != 0,
      fun j => if (control &&& 0xfe).toNat ≤ j then bitmap.getD (j - (control &&& 0xfe).toNat) 0 else 0⟩ := by
  have len : (UInt8.ofNat (bitmap.length + 3)).toNat = bitmap.length + 3 := by
    rw [UInt8.toNat_ofNat']
    omega
  exact if_pos ⟨rfl,len⟩

theorem window_byte (tim : Bitmap) (j : Nat) :
    (if findN1 tim ≤ j then (window tim).getD (j - findN1 tim) 0 else 0) = byte tim j := by
  obtain ⟨_,_⟩ := @findN2_window tim _ (findN1_small tim)
  by_cases after : findN1 tim ≤ j
  · rw [if_pos after]
    unfold window
    by_cases inside : j ≤ findN2 tim (findN1 tim)
    · rw [List.getD_eq_getElem _ _ (by simp; omega),List.getElem_map,List.getElem_range']
      congr 1
      omega
    · rw [List.getD_eq_default _ _ (by simp; omega)]
      by_contra set
      exact inside (findN2_above after (Ne.symm set))
  · rw [if_neg after]
    by_contra set
    exact after (findN1_below (Ne.symm set))

theorem element_traffic (ps : Ps) (dtimPeriod : UInt8) (isTemplate : Bool) (asleep : 0 < ps.numStaPs) :
    decode (ps.element dtimPeriod isTemplate) = some ⟨ps.group dtimPeriod isTemplate,byte ps.tim⟩ := by
  unfold Ps.element
  rw [decide_eq_true asleep,Bool.true_and]
  cases empty : bitmapEmpty ps.tim with
  | true =>
    have zero : byte ps.tim = fun _ => 0 := funext (empty_byte empty)
    have single : ∀ j, [(0 : UInt8)].getD j 0 = 0 := fun j => by cases j <;> rfl
    rw [if_neg (by decide),decode_element _ _ _ (by decide),zero]
    simp only [single,ite_self]
    cases ps.group dtimPeriod isTemplate <;> rfl
  | false =>
    rw [if_pos (by decide),decode_element _ _ _ (window_short ps.tim)]
    have small : findN1 ps.tim < 256 := Nat.lt_trans (findN1_small ps.tim) (by decide)
    obtain ⟨offset,group⟩ := control_group small (findN1_even ps.tim) (ps.group dtimPeriod isTemplate)
    rw [group,offset]
    exact congrArg (fun bytes => some (Traffic.mk (ps.group dtimPeriod isTemplate) bytes)) (funext (window_byte ps.tim))

theorem timElement_length (count : Int) (dtimPeriod control : UInt8) (short : bitmap.length < 252) :
    (timElement count dtimPeriod control bitmap).length = ((timElement count dtimPeriod control bitmap).getD 1 0).toNat + 2 := by
  change bitmap.length + 5 = (UInt8.ofNat (bitmap.length + 3)).toNat + 2
  rw [UInt8.toNat_ofNat']
  omega

theorem element_length (ps : Ps) (dtimPeriod : UInt8) (isTemplate : Bool) :
    (ps.element dtimPeriod isTemplate).length = ((ps.element dtimPeriod isTemplate).getD 1 0).toNat + 2 := by
  unfold Ps.element
  dsimp only
  split
  · exact timElement_length _ _ _ (window_short ps.tim)
  · exact timElement_length _ _ _ (by decide)

theorem tim_lossless (ps : Ps) (dtimPeriod : UInt8) (fresh : Nat → UInt8) (skb : List UInt8) (isTemplate : Bool)
    (asleep : 0 < ps.numStaPs) : ∃ ps' element, beaconAddTim ps dtimPeriod fresh skb isTemplate = some (ps',skb ++ element) ∧
      decode element = some ⟨decide (ps'.dtimCount = 0 ∧ ps.bcBuf ≠ []),byte ps.tim⟩ ∧
      element.length = (element.getD 1 0).toNat + 2 := by
  have group : ps.group dtimPeriod isTemplate = decide (ps.counted dtimPeriod isTemplate = 0 ∧ ps.bcBuf ≠ []) := by
    unfold Ps.group
    rw [Bool.eq_iff_iff]
    simp
  refine ⟨_,_,beaconAddTim_eq ps dtimPeriod fresh skb isTemplate,?_,element_length ps dtimPeriod isTemplate⟩
  rw [element_traffic ps dtimPeriod isTemplate asleep,group]
  rfl

def samplePs : Ps := ⟨2,bssTimSet (bssTimSet sampleTim 20) 1999,[sampleFrame],1,false⟩

theorem tim_lossless_sample : ∃ ps' element, beaconAddTim samplePs 2 (fun _ => 0xaa) [0x80,0] false = some (ps',[0x80,0] ++ element) ∧
    decode element = some ⟨decide (ps'.dtimCount = 0 ∧ samplePs.bcBuf ≠ []),byte samplePs.tim⟩ ∧
    element.length = (element.getD 1 0).toNat + 2 :=
  tim_lossless samplePs 2 (fun _ => 0xaa) [0x80,0] false (by decide)

end element

-- Microseconds in 16 bits; tsf has all bits set when the driver does not know it.
def beaconUsecs (beaconInt : UInt16) : Nat := beaconInt.toNat * 1024 % 2 ^ 16
def noTsf : UInt64 := 0xffffffffffffffff

def recalcDtim (type : IfType) (bss : Bool) (tsf : UInt64) (beaconInt : UInt16) (dtimPeriod : UInt8) (ps : Ps) : Ps :=
  if tsf == noTsf || beaconUsecs beaconInt == 0 || dtimPeriod == 0 then ps
  else if type == .other || type.bssOrVlan && !bss then ps
  else
    let bcnsFromDtim := tsf.toNat / beaconUsecs beaconInt % dtimPeriod.toNat
    {ps with dtimCount := if bcnsFromDtim == 0 then 0 else dtimPeriod.toNat - bcnsFromDtim}

structure Build where
  numStaPs : Int
  tim : Bitmap
  bcBuf : List PowerSave.Skb
  fresh : Nat → UInt8
  skb : List UInt8
  isTemplate : Bool

def Ps.build (dtimPeriod : UInt8) (ps : Ps) (b : Build) : Option (Ps × List UInt8) :=
  beaconAddTim {ps with numStaPs := b.numStaPs,tim := b.tim,bcBuf := b.bcBuf} dtimPeriod b.fresh b.skb b.isTemplate

def Ps.builds (dtimPeriod : UInt8) (ps : Ps) (bs : List Build) : Option Ps :=
  bs.foldlM (fun ps b => (ps.build dtimPeriod b).map Prod.fst) ps

def beacons (bs : List Build) : Nat := bs.countP fun b => !b.isTemplate

def phase (period m : Nat) : Nat := (period - m % period) % period

def Phased (ps : Ps) (dtimPeriod : UInt8) (n : Nat) : Prop :=
  ∀ (bs : List Build) (b : Build), b.isTemplate = false →
    ∃ before after element, ps.builds dtimPeriod bs = some before ∧
      before.build dtimPeriod b = some (after,b.skb ++ element) ∧
      element.getD 2 0 = UInt8.ofNat (phase dtimPeriod.toNat (n + (beacons bs + 1))) ∧ after.dtimCount < dtimPeriod.toNat

section dtim
variable {ps : Ps}

theorem ofInt_nat (k : Nat) : UInt8.ofInt k = UInt8.ofNat k := by
  exact UInt8.ofNat_mod_size

theorem phase_lt (positive : 0 < period) (m : Nat) : phase period m < period := Nat.mod_lt _ positive

theorem phase_eq (positive : 0 < period) (m : Nat) : phase period m = if m % period = 0 then 0 else period - m % period := by
  unfold phase
  split
  · rename_i zero
    rw [zero,Nat.sub_zero,Nat.mod_self]
  · rw [Nat.mod_eq_of_lt (by omega)]

theorem phase_next (positive : 0 < period) (m : Nat) :
    phase period (m + 1) = if phase period m = 0 then period - 1 else phase period m - 1 := by
  have below : m % period < period := Nat.mod_lt m positive
  have step : (m + 1) % period = (m % period + 1) % period := (Nat.mod_add_mod m period 1).symm
  rw [phase_eq positive,phase_eq positive,step]
  by_cases last : m % period + 1 = period
  · rw [last,Nat.mod_self,if_pos rfl]
    split <;> split <;> omega
  · rw [Nat.mod_eq_of_lt (by omega),if_neg (by omega)]
    split <;> split <;> omega

theorem phase_inj (positive : 0 < period) (same : phase period m = phase period n) : m % period = n % period := by
  have below : m % period < period := Nat.mod_lt m positive
  have below' : n % period < period := Nat.mod_lt n positive
  rw [phase_eq positive,phase_eq positive] at same
  split at same <;> split at same <;> omega

theorem phase_add (same : m % period = n % period) (k : Nat) : phase period (m + k) = phase period (n + k) := by
  unfold phase
  rw [Nat.add_mod,same,← Nat.add_mod]

theorem countDown_phase (positive : 0 < dtimPeriod.toNat) (m : Nat) :
    countDown dtimPeriod (phase dtimPeriod.toNat m : Nat) = (phase dtimPeriod.toNat (m + 1) : Nat) := by
  rw [phase_next positive]
  unfold countDown
  split
  · rename_i zero
    have none_left : phase dtimPeriod.toNat m = 0 := by simpa using zero
    rw [if_pos none_left]
    omega
  · rename_i some_left
    have left : phase dtimPeriod.toNat m ≠ 0 := by simpa using some_left
    rw [if_neg left]
    omega

theorem build_count (ps : Ps) (dtimPeriod : UInt8) (b : Build) : ∃ after element,
    ps.build dtimPeriod b = some (after,b.skb ++ element) ∧ element.getD 2 0 = UInt8.ofInt after.dtimCount ∧
      after.dtimCount = if b.isTemplate then ps.dtimCount else countDown dtimPeriod ps.dtimCount := by
  refine ⟨_,_,beaconAddTim_eq _ _ _ _ _,?_,rfl⟩
  unfold Ps.element
  dsimp only
  split <;> rfl

theorem builds_phase (positive : 0 < dtimPeriod.toNat) (bs : List Build) (start : ps.dtimCount = (phase dtimPeriod.toNat m : Nat)) :
    ∃ after, ps.builds dtimPeriod bs = some after ∧ after.dtimCount = (phase dtimPeriod.toNat (m + beacons bs) : Nat) := by
  induction bs generalizing ps m with
  | nil => exact ⟨ps,rfl,start⟩
  | cons b rest ih =>
    obtain ⟨next,_,built,-,count⟩ := build_count ps dtimPeriod b
    have first : ps.builds dtimPeriod (b :: rest) = next.builds dtimPeriod rest := by
      unfold Ps.builds
      rw [List.foldlM_cons,built]
      rfl
    rw [first]
    cases template : b.isTemplate with
    | true =>
      rw [template,if_pos rfl,start] at count
      have number : beacons (b :: rest) = beacons rest := List.countP_cons_of_neg (by simp [template])
      rw [number]
      exact ih count
    | false =>
      rw [template,if_neg Bool.false_ne_true,start,countDown_phase positive] at count
      have number : beacons (b :: rest) = beacons rest + 1 := List.countP_cons_of_pos (by simp [template])
      rw [number,← Nat.add_assoc,Nat.add_right_comm]
      exact ih count

theorem phased_of (positive : 0 < dtimPeriod.toNat) (start : ps.dtimCount = (phase dtimPeriod.toNat n : Nat)) :
    Phased ps dtimPeriod n := by
  intro bs b beacon
  obtain ⟨before,built,count⟩ := builds_phase positive bs start
  obtain ⟨after,element,last,carried,next⟩ := build_count before dtimPeriod b
  rw [beacon,if_neg Bool.false_ne_true,count,countDown_phase positive] at next
  refine ⟨before,after,element,built,last,?_,?_⟩
  · rw [carried,next,Nat.add_assoc]
    exact ofInt_nat _
  · rw [next]
    exact Int.ofNat_lt.mpr (phase_lt positive _)

theorem beaconUsecs_eq (beaconInt : UInt16) : beaconUsecs beaconInt = beaconInt.toNat % 64 * 1024 := by
  unfold beaconUsecs
  omega

theorem recalcDtim_set (mine : type ≠ .other) (owner : type.bssOrVlan = true → bss = true) (positive : 0 < dtimPeriod.toNat)
    (known : tsf ≠ noTsf) (interval : beaconUsecs beaconInt ≠ 0) (ps : Ps) :
    (recalcDtim type bss tsf beaconInt dtimPeriod ps).dtimCount =
      (phase dtimPeriod.toNat (tsf.toNat / beaconUsecs beaconInt) : Nat) := by
  have period : dtimPeriod ≠ 0 := by
    rintro rfl
    exact absurd positive (by decide)
  have apart : (type.bssOrVlan && !bss) = false := by
    cases bssType : type.bssOrVlan with
    | false => rfl
    | true => rw [owner bssType]; rfl
  have below : tsf.toNat / beaconUsecs beaconInt % dtimPeriod.toNat < dtimPeriod.toNat := Nat.mod_lt _ positive
  unfold recalcDtim
  rw [if_neg (by simp [known,interval,period]),if_neg (by simp [mine,apart]),phase_eq positive]
  dsimp only
  split
  · rename_i zero
    rw [if_pos (beq_iff_eq.mp zero)]
    rfl
  · rename_i some_left
    rw [if_neg (fun zero => some_left (beq_iff_eq.mpr zero))]
    omega

theorem recalcDtim_unset (unset : tsf = noTsf ∨ beaconUsecs beaconInt = 0) (ps : Ps) :
    recalcDtim type bss tsf beaconInt dtimPeriod ps = ps := by
  unfold recalcDtim
  obtain unknown | zero := unset
  · rw [unknown,if_pos (by simp)]
  · rw [zero,if_pos (by simp)]

theorem phased_first (phased : Phased ps dtimPeriod n) :
    UInt8.ofInt (countDown dtimPeriod ps.dtimCount) = UInt8.ofNat (phase dtimPeriod.toNat (n + 1)) := by
  obtain ⟨_,_,_,built,last,carried,-⟩ := phased [] ⟨0,sampleTim,[],fun _ => 0,[],false⟩ rfl
  cases built
  obtain ⟨_,_,again,byte,next⟩ := build_count ps dtimPeriod ⟨0,sampleTim,[],fun _ => 0,[],false⟩
  rw [last] at again
  cases again
  rw [byte,next,if_neg Bool.false_ne_true] at carried
  exact carried

theorem phased_unset (n : Nat) : ¬ ∀ ps : Ps, Phased ps dtimPeriod n := by
  intro phased
  have one := phased_first (phased ⟨0,sampleTim,[],1,false⟩)
  have two := phased_first (phased ⟨0,sampleTim,[],2,false⟩)
  have both : UInt8.ofInt 0 = UInt8.ofInt 1 := one.trans two.symm
  exact absurd both (by decide)

theorem dtim_phase (mine : type ≠ .other) (owner : type.bssOrVlan = true → bss = true) (positive : 0 < dtimPeriod.toNat)
    (tsf : UInt64) (beaconInt : UInt16) :
    (∀ ps, Phased (recalcDtim type bss tsf beaconInt dtimPeriod ps) dtimPeriod (tsf.toNat / (beaconInt.toNat * 1024))) ↔
      tsf ≠ noTsf ∧ beaconInt.toNat % 64 ≠ 0 ∧
        tsf.toNat / (beaconInt.toNat % 64 * 1024) % dtimPeriod.toNat = tsf.toNat / (beaconInt.toNat * 1024) % dtimPeriod.toNat := by
  by_cases known : tsf = noTsf
  · have unset : ∀ ps, recalcDtim type bss tsf beaconInt dtimPeriod ps = ps := recalcDtim_unset (.inl known)
    simp only [unset]
    exact iff_of_false (phased_unset _) (fun holds => holds.1 known)
  by_cases interval : beaconUsecs beaconInt = 0
  · have unset : ∀ ps, recalcDtim type bss tsf beaconInt dtimPeriod ps = ps := recalcDtim_unset (.inr interval)
    simp only [unset]
    rw [beaconUsecs_eq] at interval
    exact iff_of_false (phased_unset _) (fun holds => holds.2.1 (by omega))
  have set := recalcDtim_set mine owner positive known interval
  rw [beaconUsecs_eq] at interval set
  constructor
  · intro phased
    refine ⟨known,by omega,?_⟩
    have first := phased_first (phased ⟨0,sampleTim,[],0,false⟩)
    rw [set,countDown_phase positive,ofInt_nat] at first
    have below : ∀ m, phase dtimPeriod.toNat m < 256 := fun m => Nat.lt_trans (phase_lt positive m) dtimPeriod.toNat_lt
    have same := congrArg UInt8.toNat first
    rw [UInt8.toNat_ofNat_of_lt' (below _),UInt8.toNat_ofNat_of_lt' (below _)] at same
    exact Nat.ModEq.add_right_cancel' 1 (phase_inj positive same)
  · rintro ⟨-,-,same⟩ _
    refine phased_of positive ?_
    rw [set]
    exact congrArg Int.ofNat (phase_add same 0)

theorem dtim_phase_sample :
    (∀ ps, Phased (recalcDtim .ap true 36864 100 2 ps) 2 ((36864 : UInt64).toNat / ((100 : UInt16).toNat * 1024))) ↔
      (36864 : UInt64) ≠ noTsf ∧ (100 : UInt16).toNat % 64 ≠ 0 ∧
        (36864 : UInt64).toNat / ((100 : UInt16).toNat % 64 * 1024) % 2 = (36864 : UInt64).toNat / ((100 : UInt16).toNat * 1024) % 2 :=
  dtim_phase (by decide) (fun _ => rfl) (by decide) 36864 100

theorem usual_interval_cut :
    ¬ ∀ ps, Phased (recalcDtim .ap true 36864 100 2 ps) 2 ((36864 : UInt64).toNat / ((100 : UInt16).toNat * 1024)) := by
  intro phased
  have first := phased_first (phased ⟨0,sampleTim,[],0,false⟩)
  exact absurd first (by decide)

end dtim

end Mac80211.Tim

import Mac80211.IbssPrespBounds

namespace Mac80211.Preq
open Tlv (Short encode encodeAll encodeAll_append)
open Chan (Chandef Width)
open Ibss (SupportedBand ieBuildHtCap ieBuildVhtCap chandefGetShift eidSuppRates eidExtSuppRates eidDsParams eidHtCapability eidVhtCapability)
open List (length_append append_nil mem_cons mem_append append_assoc drop_left not_mem_nil length_cons mem_singleton)

abbrev Elements := List (UInt8 × List UInt8)

structure Channel where
  disabled : Bool
  no80Mhz : Bool

-- cfg80211 registers no band with more than 32 rates.
structure Sband where
  band : SupportedBand
  channels : List Channel
  few : band.bitrates.length ≤ 32

def Sband.have80Mhz (sband : Sband) : Bool := sband.channels.any fun channel => !(channel.disabled || channel.no80Mhz)

structure Local where
  bands : Nat → Option Sband
  rateFlags : Width → UInt32
  frequencyToChannel : Nat → UInt8
  ieSplit : List UInt8 → List UInt8 → Nat → Nat

def numBands : Nat := 3
def beforeExtrates : List UInt8 := [0,1,10]
def beforeHt : List UInt8 := [0,1,10,50,3,59]
def beforeVht : List UInt8 := [0,1,10,50,3,59,45,72,127,84,97,107]

section build
variable (l : Local) (chandef : Chandef) (chan : Bool)

def rates (sband : Sband) (rateMask : UInt32) : List UInt8 :=
  let flags := l.rateFlags chandef.width
  let units := 2 ^ chandefGetShift chandef * 5
  (sband.band.bitrates.zipIdx.filter fun (rate,i) => rateMask.toNat.testBit i && flags &&& rate.flags == flags).map fun (rate,_) =>
    UInt8.ofNat ((rate.bitrate.toNat + units - 1) / units)

-- With custom_ie_offset. short is out_err.
structure Fill where
  out : List UInt8
  offset : Nat
  short : Bool

def Fill.put (room : Nat) (bytes : List UInt8) (s : Fill) : Fill :=
  if s.short then s else if room < s.out.length + bytes.length then {s with short := true} else {s with out := s.out ++ bytes}

def Fill.insert (room : Nat) (ie ids : List UInt8) (s : Fill) : Fill :=
  if s.short || ie.isEmpty then s
  else
    let noffset := l.ieSplit ie ids s.offset
    if room < s.out.length + (noffset - s.offset) then {s with short := true}
    else {s with out := s.out ++ (ie.drop s.offset).take (noffset - s.offset),offset := noffset}

def buildPreqIesBand (room : Nat) (ie : List UInt8) (band : Nat) (rateMask : UInt32) : Fill :=
  match l.bands band with
  | none => ⟨[],0,false⟩
  | some sband =>
    let rates := rates l chandef sband rateMask
    let s := Fill.put room (encode (eidSuppRates,rates.take 8)) ⟨[],0,false⟩
    let s := s.insert l room ie beforeExtrates
    let s := s.put room (if rates.length > 8 then encode (eidExtSuppRates,rates.drop 8) else [])
    let s := s.put room (if chan && sband.band.is2GHz then encode (eidDsParams,[l.frequencyToChannel chandef.centerFreq]) else [])
    let s := s.insert l room ie beforeHt
    let s := s.put room (if sband.band.htCap.htSupported then ieBuildHtCap sband.band.htCap sband.band.htCap.cap else [])
    let s := s.insert l room ie beforeVht
    s.put room (if sband.band.vhtCap.vhtSupported && sband.have80Mhz then ieBuildVhtCap sband.band.vhtCap sband.band.vhtCap.cap else [])

-- A pointer into the buffer, by its offset, and a length.
structure Part where
  start : Nat
  len : Nat

structure Build where
  out : List UInt8
  offset : Nat
  short : Bool
  ies : List (Nat × Part)
  common : Option Part

def Build.band (size : Nat) (ie : List UInt8) (rateMasks : Nat → UInt32) (s : Build) (band : Nat) : Build :=
  let fill := buildPreqIesBand l chandef chan (size - s.out.length) ie band (rateMasks band)
  {s with
    out := s.out ++ fill.out,
    offset := fill.offset,
    short := s.short || fill.short,
    ies := s.ies ++ [(band,⟨s.out.length,fill.out.length⟩)]}

def Build.rest (size : Nat) (ie : List UInt8) (s : Build) : Build :=
  if ie.isEmpty then s
  else if size - s.out.length < ie.length - s.offset then {s with short := true}
  else {s with out := s.out ++ ie.drop s.offset,common := some ⟨s.out.length,ie.length - s.offset⟩}

def buildPreqIes (size : Nat) (ie : List UInt8) (used : List Nat) (rateMasks : Nat → UInt32) : Build :=
  (used.foldl (Build.band l chandef chan size ie rateMasks) ⟨[],0,false,[],none⟩).rest size ie

def scanIesLen : Nat :=
  let sbands := (List.range numBands).filterMap l.bands
  4 + (sbands.map fun sband => sband.band.bitrates.length).foldr max 0 + 3 + (if sbands.any fun sband => sband.band.htCap.htSupported then 28 else 0) +
    if sbands.any fun sband => sband.band.vhtCap.vhtSupported then 14 else 0

def countBands (channels : List Nat) : List Nat :=
  channels.foldl (fun counted band => if counted.contains band then counted else band :: counted) []

def hwScanIesBufsize (single : Bool) (channels : List Nat) (ieLen : Nat) : Nat :=
  (scanIesLen l + ieLen) * if single then (countBands channels).length else 1

def usedBands (channels : List Nat) : List Nat := (List.range numBands).filter channels.contains

def bandSets (single : Bool) (channels : List Nat) : List (List Nat) :=
  if single then [usedBands channels] else (usedBands channels).map fun band => [band]

-- The band of each channel is registered.
structure Request where
  channels : List Nat
  custom : Elements
  rates : Nat → UInt32
  complete : Short custom
  some : channels ≠ []
  registered : ∀ band ∈ channels, band < numBands ∧ (l.bands band).isSome

end build

def Splits (split : List UInt8 → List UInt8 → Nat → Nat) : Prop :=
  ∀ (ids : List UInt8) (before after : Elements), Short (before ++ after) →
    split (encodeAll (before ++ after)) ids (encodeAll before).length = (encodeAll (before ++ after.takeWhile fun e => ids.contains e.1)).length

def Consecutive (start : Nat) : List Part → Nat → Prop
  | [],stop => start = stop
  | part :: rest,stop => part.start = start ∧ Consecutive (start + part.len) rest stop

def Build.bytes (s : Build) (part : Part) : List UInt8 := (s.out.drop part.start).take part.len

-- The indices of the rates that are asked for and that the width can use, each once.
def Wanted (l : Local) (chandef : Chandef) (sband : Sband) (rateMask : UInt32) (bytes : List UInt8) : Prop :=
  ∃ indices : List Nat, indices.Pairwise (· < ·) ∧
    (∀ i, i ∈ indices ↔ ∃ rate, sband.band.bitrates[i]? = some rate ∧ rateMask.toNat.testBit i = true ∧
      l.rateFlags chandef.width &&& rate.flags = l.rateFlags chandef.width) ∧
    bytes.map some = indices.map fun i => sband.band.bitrates[i]?.map fun rate =>
      UInt8.ofNat ((rate.bitrate.toNat + 2 ^ chandefGetShift chandef * 5 - 1) / (2 ^ chandefGetShift chandef * 5))

-- The rates once each, the other elements, and among them the custom ones in order.
def Complete (rates : List UInt8) (custom : Elements) (bytes : List UInt8) : Prop :=
  ∃ first ext ds ht vht a b c d, bytes = encodeAll (first ++ a ++ ext ++ ds ++ b ++ ht ++ c ++ vht ++ d) ∧
    Short (first ++ a ++ ext ++ ds ++ b ++ ht ++ c ++ vht ++ d) ∧ custom = a ++ b ++ c ++ d ∧ (first ++ ext).flatMap Prod.snd = rates ∧
    (∀ e ∈ first ++ ext, e.1 = eidSuppRates ∨ e.1 = eidExtSuppRates) ∧ ∀ e ∈ ds ++ ht ++ vht, e.1 ∈ [eidDsParams,eidHtCapability,eidVhtCapability]

structure Sound (l : Local) (chandef : Chandef) (q : Request l) (used : List Nat) (s : Build) : Prop where
  enough : s.short = false
  bands : s.ies.map Prod.fst = used
  cover : Consecutive 0 (s.ies.map Prod.snd ++ s.common.toList) s.out.length
  complete : ∀ p ∈ s.ies, ∃ sband rates, l.bands p.1 = some sband ∧ Wanted l chandef sband (q.rates p.1) rates ∧
    Complete rates q.custom (s.bytes p.2 ++ s.common.elim [] s.bytes)

structure Fill.Holds (s : Fill) (es before : Elements) : Prop where
  out : s.out = encodeAll es
  offset : s.offset = (encodeAll before).length
  going : s.short = false

structure Cuts (l : Local) (custom a b c d : Elements) : Prop where
  parts : custom = a ++ (b ++ (c ++ d))
  extrates : l.ieSplit (encodeAll custom) beforeExtrates 0 = (encodeAll a).length
  ht : l.ieSplit (encodeAll custom) beforeHt (encodeAll a).length = (encodeAll (a ++ b)).length
  vht : l.ieSplit (encodeAll custom) beforeVht (encodeAll (a ++ b)).length = (encodeAll (a ++ b ++ c)).length

theorem cuts_of (splits : Splits l.ieSplit) (short : Short custom) :
    ∃ a b c d, Cuts l custom a b c d := by
  have next (ids : List UInt8) (before after : Elements) (same : custom = before ++ after) :
      ∃ taken left, after = taken ++ left ∧
        l.ieSplit (encodeAll custom) ids (encodeAll before).length = (encodeAll (before ++ taken)).length := by
    refine ⟨_,_,(List.takeWhile_append_dropWhile (p := fun e => ids.contains e.1)).symm,?_⟩
    rw [same]
    exact splits ids before after (same ▸ short)
  obtain ⟨a,rest,first,extrates⟩ := next beforeExtrates [] custom rfl
  obtain ⟨b,rest,rfl,ht⟩ := next beforeHt a rest first
  obtain ⟨c,d,rfl,vht⟩ := next beforeVht (a ++ b) rest (by rw [first,append_assoc])
  exact ⟨a,b,c,d,first,extrates,ht,vht⟩

theorem Cuts.whole (cuts : Cuts l custom a b c d) :
    encodeAll custom = encodeAll (a ++ b ++ c) ++ encodeAll d := by
  rw [← encodeAll_append,cuts.parts,append_assoc,append_assoc]

section fill
variable {s : Fill}

theorem first_fits (fits : (encodeAll (es ++ more)).length ≤ room) : (encodeAll es).length ≤ room := by
  rw [encodeAll_append,length_append] at fits
  omega

theorem Fill.Holds.put {bytes : List UInt8} (holds : s.Holds es before) (fits : (encodeAll (es ++ more)).length ≤ room) (same : bytes = encodeAll more) :
    (s.put room bytes).Holds (es ++ more) before := by
  rw [encodeAll_append,length_append] at fits
  rw [Fill.put,holds.going,holds.out,same,if_neg Bool.false_ne_true,if_neg (Nat.not_lt.mpr fits)]
  exact ⟨(encodeAll_append es more).symm,holds.offset,rfl⟩

theorem Fill.Holds.insert (holds : s.Holds es before) (fits : (encodeAll (es ++ taken)).length ≤ room)
    (same : custom = before ++ (taken ++ left))
    (noffset : l.ieSplit (encodeAll custom) ids (encodeAll before).length = (encodeAll (before ++ taken)).length) :
    (s.insert l room (encodeAll custom) ids).Holds (es ++ taken) (before ++ taken) := by
  rw [encodeAll_append,length_append] at fits
  have count : (encodeAll (before ++ taken)).length - (encodeAll before).length = (encodeAll taken).length := by
    rw [encodeAll_append,length_append,Nat.add_sub_cancel_left]
  have bytes : ((encodeAll custom).drop (encodeAll before).length).take (encodeAll taken).length = encodeAll taken := by
    rw [same,encodeAll_append,drop_left,encodeAll_append,List.take_left]
  cases empty : (encodeAll custom).isEmpty with
  | true =>
    have none : encodeAll taken = [] := by
      rw [← bytes,List.isEmpty_iff.mp empty,List.drop_nil,List.take_nil]
    rw [Fill.insert,empty,Bool.or_true,if_pos rfl]
    constructor
    · rw [holds.out,encodeAll_append,none,append_nil]
    · rw [holds.offset,encodeAll_append,none,append_nil]
    · exact holds.going
  | false =>
    rw [Fill.insert,holds.going,empty,Bool.or_false,if_neg Bool.false_ne_true,holds.offset]
    dsimp only
    rw [noffset,count,holds.out,if_neg (Nat.not_lt.mpr fits),bytes]
    exact ⟨(encodeAll_append es taken).symm,rfl,rfl⟩
end fill

section band
variable {l : Local} {chandef : Chandef} {chan : Bool} {sband : Sband}

def madeFirst (rates : List UInt8) : Elements := [(eidSuppRates,rates.take 8)]
def madeExt (rates : List UInt8) : Elements := if rates.length > 8 then [(eidExtSuppRates,rates.drop 8)] else []

variable (l chandef chan sband) in
def madeDs : Elements :=
  if chan && sband.band.is2GHz then [(eidDsParams,[l.frequencyToChannel chandef.centerFreq])] else []

def madeHt (sband : Sband) : Elements :=
  if sband.band.htCap.htSupported then [(eidHtCapability,(ieBuildHtCap sband.band.htCap sband.band.htCap.cap).drop 2)] else []

def madeVht (sband : Sband) : Elements :=
  if sband.band.vhtCap.vhtSupported && sband.have80Mhz then [(eidVhtCapability,(ieBuildVhtCap sband.band.vhtCap sband.band.vhtCap.cap).drop 2)] else []

variable (l chandef chan sband) (a b c : Elements) in
def bandElements (rates : List UInt8) : Elements :=
  madeFirst rates ++ a ++ madeExt rates ++ madeDs l chandef chan sband ++ b ++ madeHt sband ++ c ++ madeVht sband

variable (chandef chan) in
theorem band_holds (mask : UInt32) (room : Nat) (found : l.bands band = some sband) (cuts : Cuts l custom a b c d)
    (fits : (encodeAll (bandElements l chandef chan sband a b c (rates l chandef sband mask))).length ≤ room) :
    (buildPreqIesBand l chandef chan room (encodeAll custom) band mask).Holds
      (bandElements l chandef chan sband a b c (rates l chandef sband mask)) (a ++ b ++ c) := by
  have start : Fill.Holds ⟨[],0,false⟩ [] [] := ⟨rfl,rfl,rfl⟩
  have ext : (if (rates l chandef sband mask).length > 8 then encode (eidExtSuppRates,(rates l chandef sband mask).drop 8) else []) =
      encodeAll (madeExt (rates l chandef sband mask)) := by
    rw [madeExt]
    split
    · exact (append_nil _).symm
    · rfl
  have ds : (if chan && sband.band.is2GHz then encode (eidDsParams,[l.frequencyToChannel chandef.centerFreq]) else []) =
      encodeAll (madeDs l chandef chan sband) := by
    rw [madeDs]
    split <;> rfl
  have ht : (if sband.band.htCap.htSupported then ieBuildHtCap sband.band.htCap sband.band.htCap.cap else []) = encodeAll (madeHt sband) := by
    rw [madeHt]
    split
    · exact (Ibss.encode_of 26 _ rfl (Ibss.htCap_length ..)).symm.trans (append_nil _).symm
    · rfl
  have vht : (if sband.band.vhtCap.vhtSupported && sband.have80Mhz then ieBuildVhtCap sband.band.vhtCap sband.band.vhtCap.cap else []) =
      encodeAll (madeVht sband) := by
    rw [madeVht]
    split
    · exact (Ibss.encode_of 12 _ rfl (Ibss.vhtCap_length ..)).symm.trans (append_nil _).symm
    · rfl
  have fitsC := first_fits fits
  have fitsHt := first_fits fitsC
  have fitsB := first_fits fitsHt
  have fitsDs := first_fits fitsB
  have fitsExt := first_fits fitsDs
  have fitsA := first_fits fitsExt
  have parts := cuts.parts
  rw [buildPreqIesBand,found]
  have first := start.put (first_fits fitsA) (append_nil (encode (eidSuppRates,(rates l chandef sband mask).take 8))).symm
  have afterA := first.insert fitsA parts cuts.extrates
  have afterDs := (afterA.put fitsExt ext).put fitsDs ds
  have afterHt := (afterDs.insert fitsB parts cuts.ht).put fitsHt ht
  exact (afterHt.insert fitsC (parts.trans (append_assoc ..).symm) cuts.vht).put fits vht
variable (l chandef sband) in
theorem rates_few (mask : UInt32) : (rates l chandef sband mask).length ≤ sband.band.bitrates.length := by
  rw [rates,List.length_map]
  exact Nat.le_trans (List.length_filter_le ..) (Nat.le_of_eq List.length_zipIdx)

theorem rates_wanted (l : Local) (chandef : Chandef) (sband : Sband) (mask : UInt32) :
    Wanted l chandef sband mask (rates l chandef sband mask) := by
  let used := sband.band.bitrates.zipIdx.filter fun (rate,i) =>
    mask.toNat.testBit i && l.rateFlags chandef.width &&& rate.flags == l.rateFlags chandef.width
  refine ⟨used.map Prod.snd,?_,fun i => ?_,?_⟩
  · have inside : (used.map Prod.snd).Sublist (sband.band.bitrates.zipIdx.map Prod.snd) := List.filter_sublist.map _
    rw [List.zipIdx_map_snd] at inside
    exact List.Pairwise.sublist inside List.pairwise_lt_range'
  · simp [used,List.mem_filter,List.mem_zipIdx_iff_getElem?]
  · rw [rates,List.map_map,List.map_map]
    refine List.map_congr_left fun x member => ?_
    have here := List.mem_zipIdx_iff_getElem?.mp (List.mem_filter.mp member).1
    simp [here]

theorem band_complete {rates : List UInt8} (few : rates.length ≤ 32) (short : Short custom) (parts : custom = a ++ (b ++ (c ++ d))) :
    Complete rates custom (encodeAll (bandElements l chandef chan sband a b c rates) ++ encodeAll d) := by
  refine ⟨madeFirst rates,madeExt rates,madeDs l chandef chan sband,madeHt sband,madeVht sband,a,b,c,d,?_,?_,?_,?_,?_,?_⟩
  · rw [bandElements,encodeAll_append _ d]
  · intro e member
    have ht := Ibss.htCap_length sband.band.htCap sband.band.htCap.cap
    have vht := Ibss.vhtCap_length sband.band.vhtCap sband.band.vhtCap.cap
    have custom : e ∈ a ∨ e ∈ b ∨ e ∈ c ∨ e ∈ d → e.2.length < 256 := by
      intro among
      refine short e ?_
      rw [parts,mem_append,mem_append,mem_append]
      exact among
    simp only [madeFirst,madeExt,madeDs,madeHt,madeVht,mem_append,mem_cons,List.mem_ite_nil_right,not_mem_nil,or_false] at member
    grind
  · rw [parts,append_assoc,append_assoc]
  · rw [madeFirst,madeExt,List.flatMap_append]
    split
    · exact (congrArg₂ _ (append_nil _) (append_nil _)).trans (List.take_append_drop 8 rates)
    · exact (append_nil _).trans ((append_nil _).trans (List.take_of_length_le (by omega)))
  · simp only [madeFirst,madeExt,mem_append,mem_cons,List.mem_ite_nil_right,not_mem_nil,or_false]
    grind
  · simp only [madeDs,madeHt,madeVht,mem_append,mem_cons,List.mem_ite_nil_right,not_mem_nil,or_false]
    grind

theorem le_largest {sbands : List Sband} (member : sband ∈ sbands) :
    sband.band.bitrates.length ≤ (sbands.map fun sband => sband.band.bitrates.length).foldr max 0 := by
  induction sbands with
  | nil => cases member
  | cons first rest ih =>
    cases mem_cons.mp member with
    | inl same => exact same ▸ Nat.le_max_left ..
    | inr later => exact Nat.le_trans (ih later) (Nat.le_max_right ..)

variable (chandef chan) (a b c : Elements) in
theorem band_length (mask : UInt32) (found : l.bands band = some sband) (known : band < numBands) :
    (encodeAll (bandElements l chandef chan sband a b c (rates l chandef sband mask))).length ≤ scanIesLen l + (encodeAll (a ++ b ++ c)).length := by
  have member : sband ∈ (List.range numBands).filterMap l.bands := List.mem_filterMap.mpr ⟨band,List.mem_range.mpr known,found⟩
  have few := rates_few l chandef sband mask
  have most := le_largest member
  have one (e : UInt8 × List UInt8) : (encodeAll [e]).length = e.2.length + 2 := by simp [encodeAll,encode]
  have none : (encodeAll []).length = 0 := rfl
  have counted (p : Sband → Bool) (n : Nat) (within : Bool) (has : within = true → p sband = true) :
      (if within = true then n else 0) ≤ if ((List.range numBands).filterMap l.bands).any p then n else 0 := by
    cases within with
    | false => exact Nat.zero_le _
    | true => rw [if_pos rfl,if_pos (List.any_eq_true.mpr ⟨sband,member,has rfl⟩)]
  have ht := counted (fun sband => sband.band.htCap.htSupported) 28 _ id
  have vht := counted (fun sband => sband.band.vhtCap.vhtSupported) 14 (sband.band.vhtCap.vhtSupported && sband.have80Mhz) fun both => (Bool.and_eq_true_iff.mp both).1
  simp only [bandElements,encodeAll_append,length_append,madeFirst,madeExt,madeDs,madeHt,madeVht,apply_ite encodeAll,apply_ite List.length,one,
    none,List.length_take,List.length_drop,Ibss.htCap_length,Ibss.vhtCap_length,length_cons,List.length_nil,Nat.reduceSub,Nat.reduceAdd,scanIesLen]
  split <;> split <;> omega
end band

section build
variable {q : Request l}

theorem Build.bytes_kept {s s' : Build} (inside : part.start + part.len ≤ s.out.length) (longer : s'.out = s.out ++ more) :
    s'.bytes part = s.bytes part := by
  rw [Build.bytes,Build.bytes,longer,List.drop_append_of_le_length (by omega),List.take_append_of_le_length (by rw [List.length_drop]; omega)]

theorem consecutive_snoc (cover : Consecutive start parts stop) (len : Nat) :
    Consecutive start (parts ++ [⟨stop,len⟩]) (stop + len) := by
  induction parts generalizing start with
  | nil =>
    cases cover
    exact ⟨rfl,rfl⟩
  | cons part rest ih => exact ⟨cover.1,ih cover.2⟩

structure Built (chandef : Chandef) (chan : Bool) (q : Request l) (a b c d : Elements) (done : List Nat) (s : Build) : Prop where
  enough : s.short = false
  common : s.common = none
  bands : s.ies.map Prod.fst = done
  cover : Consecutive 0 (s.ies.map Prod.snd) s.out.length
  room : s.out.length + (if done = [] then 0 else (encodeAll d).length) ≤ done.length * (scanIesLen l + (encodeAll q.custom).length)
  offset : done ≠ [] → s.offset = (encodeAll (a ++ b ++ c)).length
  parts : ∀ p ∈ s.ies, ∃ sband, l.bands p.1 = some sband ∧ p.2.start + p.2.len ≤ s.out.length ∧
    s.bytes p.2 = encodeAll (bandElements l chandef chan sband a b c (rates l chandef sband (q.rates p.1)))

theorem Built.next (built : Built chandef chan q a b c d done s) (cuts : Cuts l q.custom a b c d) (known : band < numBands)
    (found : l.bands band = some sband) (enough : (done.length + 1) * (scanIesLen l + (encodeAll q.custom).length) ≤ size) :
    Built chandef chan q a b c d (done ++ [band]) (s.band l chandef chan size (encodeAll q.custom) q.rates band) := by
  have length := band_length chandef chan a b c (q.rates band) found known
  have whole := congrArg List.length cuts.whole
  have room := built.room
  rw [length_append] at whole
  rw [Nat.add_mul,Nat.one_mul] at enough
  have fill := band_holds chandef chan (q.rates band) (size - s.out.length) found cuts (by omega)
  have out : (s.band l chandef chan size (encodeAll q.custom) q.rates band).out =
      s.out ++ encodeAll (bandElements l chandef chan sband a b c (rates l chandef sband (q.rates band))) := by rw [← fill.out]; rfl
  constructor
  · rw [Build.band,built.enough,fill.going]
    rfl
  · exact built.common
  · rw [Build.band,List.map_append,built.bands]
    rfl
  · rw [Build.band,List.map_append,length_append]
    exact consecutive_snoc built.cover _
  · rw [out,length_append,if_neg (by simp),length_append,List.length_singleton,Nat.add_mul,Nat.one_mul]
    omega
  · exact fun _ => fill.offset
  · intro p member
    rcases mem_append.mp member with earlier | new
    · obtain ⟨sband,found,inside,bytes⟩ := built.parts p earlier
      rw [Build.bytes_kept inside out,out,length_append]
      exact ⟨sband,found,by omega,bytes⟩
    · cases mem_singleton.mp new
      refine ⟨sband,found,?_,?_⟩
      · rw [out,← fill.out,length_append]
      · rw [Build.bytes,out,drop_left,fill.out,List.take_length]

theorem Built.all (built : Built chandef chan q a b c d done s) (cuts : Cuts l q.custom a b c d) (rest : List Nat)
    (known : ∀ band ∈ rest, band < numBands ∧ (l.bands band).isSome)
    (enough : (done ++ rest).length * (scanIesLen l + (encodeAll q.custom).length) ≤ size) :
    Built chandef chan q a b c d (done ++ rest) (rest.foldl (Build.band l chandef chan size (encodeAll q.custom) q.rates) s) := by
  induction rest generalizing done s with
  | nil =>
    rw [append_nil]
    exact built
  | cons band rest ih =>
    obtain ⟨inside,registered⟩ := known band (List.mem_cons_self ..)
    obtain ⟨_,found⟩ := Option.isSome_iff_exists.mp registered
    have share : (done.length + 1) * (scanIesLen l + (encodeAll q.custom).length) ≤ size := by
      refine Nat.le_trans (Nat.mul_le_mul_right _ ?_) enough
      rw [length_append,length_cons]
      omega
    rw [← List.singleton_append,← append_assoc] at enough ⊢
    exact ih (built.next cuts inside found share) (fun band member => known band (List.mem_cons_of_mem _ member)) enough

theorem Built.rest (built : Built chandef chan q a b c d used s) (cuts : Cuts l q.custom a b c d) (some : used ≠ [])
    (enough : used.length * (scanIesLen l + (encodeAll q.custom).length) ≤ size) :
    Sound l chandef q used (s.rest size (encodeAll q.custom)) := by
  have whole := congrArg List.length cuts.whole
  have room := built.room
  have offset := built.offset some
  rw [length_append] at whole
  rw [if_neg some] at room
  have each {s' : Build} (longer : s'.out = s.out ++ encodeAll d) (ies : s'.ies = s.ies) (common : s'.common.elim [] s'.bytes = encodeAll d) :
      ∀ p ∈ s'.ies, ∃ sband rates, l.bands p.1 = .some sband ∧ Wanted l chandef sband (q.rates p.1) rates ∧
        Complete rates q.custom (s'.bytes p.2 ++ s'.common.elim [] s'.bytes) := by
    intro p member
    rw [ies] at member
    obtain ⟨sband,found,inside,bytes⟩ := built.parts p member
    refine ⟨sband,rates l chandef sband (q.rates p.1),found,rates_wanted ..,?_⟩
    rw [Build.bytes_kept inside longer,bytes,common]
    exact band_complete (Nat.le_trans (rates_few ..) sband.few) q.complete cuts.parts
  cases empty : (encodeAll q.custom).isEmpty with
  | true =>
    have none : encodeAll d = [] := (List.append_eq_nil_iff.mp (cuts.whole.symm.trans (List.isEmpty_iff.mp empty))).2
    rw [Build.rest,if_pos empty]
    refine ⟨built.enough,built.bands,?_,each ?_ rfl ?_⟩
    · rw [built.common,Option.toList_none,append_nil]
      exact built.cover
    · rw [none,append_nil]
    · rw [built.common,none]
      rfl
  | false =>
    have left : (encodeAll q.custom).length - s.offset = (encodeAll d).length := by omega
    have tail : (encodeAll q.custom).drop s.offset = encodeAll d := by rw [offset,cuts.whole,drop_left]
    rw [Build.rest,if_neg (by rw [empty]; exact Bool.false_ne_true),left,if_neg (by omega),tail]
    refine ⟨built.enough,built.bands,?_,each rfl rfl ?_⟩
    · rw [length_append]
      exact consecutive_snoc built.cover _
    · exact (congrArg (List.take _) drop_left).trans (List.take_length ..)

theorem build_sound (splits : Splits l.ieSplit) (used : List Nat) (some : used ≠ []) (known : ∀ band ∈ used, band < numBands ∧ (l.bands band).isSome)
    (enough : used.length * (scanIesLen l + (encodeAll q.custom).length) ≤ size) :
    Sound l chandef q used (buildPreqIes l chandef chan size (encodeAll q.custom) used q.rates) := by
  obtain ⟨a,b,c,d,cuts⟩ := cuts_of splits q.complete
  have start : Built chandef chan q a b c d [] ⟨[],0,false,[],none⟩ :=
    ⟨rfl,rfl,rfl,rfl,Nat.zero_le _,fun none => absurd rfl none,nofun⟩
  exact (start.all cuts used known enough).rest cuts some enough

theorem countBands_members (channels counted : List Nat) (once : counted.Nodup) :
    (channels.foldl (fun counted band => if counted.contains band then counted else band :: counted) counted).Nodup ∧
      ∀ band, band ∈ channels.foldl (fun counted band => if counted.contains band then counted else band :: counted) counted ↔
        band ∈ counted ∨ band ∈ channels := by
  induction channels generalizing counted with
  | nil => exact ⟨once,by simp⟩
  | cons band rest ih =>
    rw [List.foldl_cons]
    split
    · obtain ⟨nodup,members⟩ := ih counted once
      refine ⟨nodup,fun other => ?_⟩
      rw [members,mem_cons]
      grind
    · rename_i new
      obtain ⟨nodup,members⟩ := ih (band :: counted) (List.nodup_cons.mpr ⟨fun before => new (List.contains_iff_mem.mpr before),once⟩)
      refine ⟨nodup,fun other => ?_⟩
      rw [members,mem_cons,mem_cons]
      grind

theorem used_iff : band ∈ usedBands channels ↔ band < numBands ∧ band ∈ channels := by
  rw [usedBands,List.mem_filter,List.mem_range,List.contains_iff_mem]

theorem count_eq_used (known : ∀ band ∈ channels, band < numBands) : (countBands channels).length = (usedBands channels).length := by
  obtain ⟨once,members⟩ := countBands_members channels [] .nil
  refine ((List.perm_ext_iff_of_nodup once (List.Pairwise.filter _ List.nodup_range)).mpr fun band => ?_).length_eq
  rw [members]
  refine Iff.trans ⟨fun counted => ?_,fun used => .inr used.2⟩ used_iff.symm
  have among := counted.resolve_left nofun
  exact ⟨known band among,among⟩

theorem preq_ies_complete (splits : Splits l.ieSplit) (single : Bool) (used : List Nat) (member : used ∈ bandSets single q.channels) :
    Sound l chandef q used (buildPreqIes l chandef chan (hwScanIesBufsize l single q.channels (encodeAll q.custom).length) (encodeAll q.custom) used
      q.rates) := by
  have known (band : Nat) (used : band ∈ usedBands q.channels) := q.registered band (used_iff.mp used).2
  cases single with
  | false =>
    obtain ⟨band,among,rfl⟩ := List.mem_map.mp member
    refine build_sound splits [band] (by simp) (fun other one => ?_) (Nat.le_of_eq (Nat.mul_comm ..))
    cases mem_singleton.mp one
    exact known band among
  | true =>
    cases mem_singleton.mp member
    have count := count_eq_used fun band among => (q.registered band among).1
    refine build_sound splits _ (fun none => ?_) known ?_
    · obtain ⟨band,among⟩ := List.exists_mem_of_ne_nil _ q.some
      have used := used_iff.mpr ⟨(q.registered band among).1,among⟩
      rw [none] at used
      cases used
    · rw [hwScanIesBufsize,if_pos rfl,count,Nat.mul_comm]
end build

def dual : Local where
  bands band := if band < 2 then .some ⟨⟨band == 0,List.replicate 12 ⟨0,60⟩,⟨true,0,0,0,⟨Vector.replicate 10 0,Vector.replicate 6 0⟩⟩,
    ⟨band == 1,0,Vector.replicate 8 0⟩⟩,[⟨false,false⟩],by simp⟩ else none
  rateFlags _ := 0
  frequencyToChannel freq := UInt8.ofNat ((freq - 5000) / 5)
  ieSplit ies ids offset := offset + (encodeAll ((Tlv.elements ies.length (ies.drop offset)).takeWhile fun e => ids.contains e.1)).length

def both : Request dual where
  channels := [0,0,1]
  custom := [(10,[48]),(221,[0,80,242])]
  rates _ := 0xfff
  complete := by unfold Short; decide
  some := by decide
  registered := by decide

theorem preq_ies_complete_sample :
    Sound dual ⟨1,0,2412,.noHt20,2412,0⟩ both [0,1]
      (buildPreqIes dual ⟨1,0,2412,.noHt20,2412,0⟩ false (hwScanIesBufsize dual true both.channels 8) (encodeAll both.custom) [0,1] both.rates) := by
  refine preq_ies_complete (fun ids before after short => ?_) true [0,1] (by decide)
  have count (es : Elements) : es.length ≤ (encodeAll es).length := by
    induction es with
    | nil => exact Nat.le_refl _
    | cons e rest ih =>
      have first : (encode e).length = e.2.length + 2 := rfl
      have all : (encodeAll (e :: rest)).length = (encode e).length + (encodeAll rest).length := length_append
      rw [all,length_cons]
      omega
  have enough : after.length ≤ (encodeAll (before ++ after)).length := by
    have := count after
    rw [encodeAll_append,length_append]
    omega
  have found := Tlv.elements_encodeAll _ (List.forall_mem_append.mp short).2 enough
  conv_rhs => rw [encodeAll_append,length_append,← found]
  rw [dual]
  dsimp only
  rw [encodeAll_append before after,drop_left]
end Mac80211.Preq

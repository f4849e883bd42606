import Mathlib.Tactic.Common
import Mathlib.Algebra.Ring.Nat

namespace Mac80211.CsaCounters

open List (mem_map length_set mem_map_of_mem mem_filter)

inductive VifType where
  | ap | adhoc | meshPoint | other
deriving DecidableEq

-- Room for n counters in the tables; a length that is not here is that of its buffer.
structure Beacon (n : Nat) where
  head : List UInt8
  tail : Option (List UInt8)
  csaCounterOffsets : Vector UInt16 n
  csaCurrentCounter : UInt8

structure ProbeResp (n : Nat) where
  csaCounterOffsets : Vector UInt16 n
  data : List UInt8

structure Vif (n : Nat) where
  type : VifType
  running : Bool
  beacon : Option (Beacon n)
  probeResp : Option (ProbeResp n)

-- An access that leaves its buffer is none.
def store (data : List UInt8) (i : Nat) (v : UInt8) : Option (List UInt8) := if i < data.length then some (data.set i v) else none

def Beacon.data (b : Beacon n) : VifType → Option (List UInt8)
  | .ap => some (b.tail.getD [])
  | .adhoc => some b.head
  | .meshPoint => some b.head
  | .other => none

def Beacon.setData (b : Beacon n) (data : List UInt8) : VifType → Beacon n
  | .ap => {b with tail := b.tail.map fun _ => data}
  | .adhoc => {b with head := data}
  | .meshPoint => {b with head := data}
  | .other => b

structure Templates where
  beacon : List UInt8
  resp : Option (List UInt8)

def storeBeacon (data : List UInt8) (offset : UInt16) (count : UInt8) : Option (List UInt8) :=
  if offset ≠ 0 then store data offset.toNat count else some data

def storeResp (resp : Option (List UInt8)) (offset : UInt16) (count : UInt8) : Option (Option (List UInt8)) :=
  match resp with
  | none => some none
  | some data => (store data offset.toNat count).map some

-- The loop of ieee80211_set_csa returns at a counter that is outside of the beacon.
def setCounters (count : UInt8) : List (UInt16 × UInt16) → Templates → Option Templates
  | [],t => some t
  | (offset,respOffset) :: rest,t =>
    if offset ≠ 0 ∧ offset.toNat ≥ t.beacon.length then some t
    else
      (storeBeacon t.beacon offset count).bind fun beacon =>
        (storeResp t.resp respOffset count).bind fun resp => setCounters count rest ⟨beacon,resp⟩

def offsetPairs (beacon : Beacon n) (resp : Option (ProbeResp n)) : List (UInt16 × UInt16) :=
  (List.finRange n).map fun i => (beacon.csaCounterOffsets[i],(resp.map fun resp => resp.csaCounterOffsets[i]).getD 0)

def usedResp (type : VifType) (resp : Option (ProbeResp n)) : Option (ProbeResp n) := if type == .ap then resp else none

def ieee80211SetCsa (type : VifType) (resp : Option (ProbeResp n)) (beacon : Beacon n) : Option (Beacon n × Option (ProbeResp n)) :=
  match beacon.data type with
  | none => some (beacon,resp)
  | some data =>
    let used := usedResp type resp
    (setCounters beacon.csaCurrentCounter (offsetPairs beacon used) ⟨data,used.map ProbeResp.data⟩).map fun t =>
      (beacon.setData t.beacon type,match t.resp with
        | none => resp
        | some data => resp.map fun resp => {resp with data := data})

def firstCounter (beacon : Beacon n) (data : List UInt8) : Option Bool :=
  let offset := (beacon.csaCounterOffsets[0]?).getD 0
  if offset = 0 then some false
  else if offset.toNat > data.length then some false
  else (data[offset.toNat]?).map (· == 1)

def ieee80211CsaIsComplete (vif : Vif n) : Option Bool :=
  if !vif.running then some false
  else
    match vif.beacon with
    | none => some false
    | some beacon =>
      match vif.type with
      | .ap => match beacon.tail with
        | none => some false
        | some tail => firstCounter beacon tail
      | .adhoc => firstCounter beacon beacon.head
      | .meshPoint => firstCounter beacon beacon.head
      | .other => some false

def places (offsets : List UInt16) : List Nat := (offsets.filter (· ≠ 0)).map UInt16.toNat

structure Counted (offsets : List UInt16) (count : UInt8) (before after : List UInt8) : Prop where
  frame : after.length = before.length ∧ ∀ j, j ∉ places offsets → after[j]? = before[j]?
  counted : ∀ j ∈ places offsets, after[j]? = some count

structure OnlyCounters (vif : Vif n) (beacon : Beacon n) : Prop where
  written : ∃ beacon' resp', ieee80211SetCsa vif.type vif.probeResp beacon = some (beacon',resp') ∧
    (∀ data, beacon.data vif.type = some data → ∃ data', beacon' = beacon.setData data' vif.type ∧
      Counted beacon.csaCounterOffsets.toList beacon.csaCurrentCounter data data') ∧
    (beacon.data vif.type = none → beacon' = beacon) ∧
    (∀ resp, usedResp vif.type vif.probeResp = some resp → ∃ data', resp' = some {resp with data := data'} ∧
      Counted resp.csaCounterOffsets.toList beacon.csaCurrentCounter resp.data data') ∧
    (usedResp vif.type vif.probeResp = none → resp' = vif.probeResp)
  read : ieee80211CsaIsComplete {vif with beacon := some beacon} ≠ none

-- Every offset of the probe response is used, also one that is zero.
structure Fits (vif : Vif n) (beacon : Beacon n) : Prop where
  inBeacon : ∀ data, beacon.data vif.type = some data → ∀ j ∈ places beacon.csaCounterOffsets.toList, j < data.length
  inResp : ∀ resp, usedResp vif.type vif.probeResp = some resp → ∀ offset ∈ resp.csaCounterOffsets.toList,
    offset.toNat < resp.data.length ∧ (offset = 0 → resp.data[0]? = some beacon.csaCurrentCounter)

def writeAll (count : UInt8) (js : List Nat) (data : List UInt8) : List UInt8 := js.foldl (fun data j => data.set j count) data

section loop

theorem writeAll_length (count : UInt8) (js : List Nat) (data : List UInt8) : (writeAll count js data).length = data.length := by
  induction js generalizing data with
  | nil => rfl
  | cons j rest ih => exact (ih (data.set j count)).trans length_set

theorem writeAll_get (count : UInt8) (js : List Nat) (data : List UInt8) (j : Nat) :
    (writeAll count js data)[j]? = if j ∈ js ∧ j < data.length then some count else data[j]? := by
  induction js generalizing data with
  | nil => simp [writeAll]
  | cons i rest ih =>
    have step : (writeAll count (i :: rest) data)[j]? = (writeAll count rest (data.set i count))[j]? := rfl
    rw [step,ih,length_set,List.getElem?_set]
    by_cases here : i = j
    · subst here
      by_cases inside : i < data.length <;> simp [inside]
    · have other : j ∈ i :: rest ↔ j ∈ rest := by simp [Ne.symm here]
      rw [if_neg here]
      simp only [other]

theorem places_cons (offset : UInt16) (rest : List UInt16) :
    places (offset :: rest) = if offset ≠ 0 then offset.toNat :: places rest else places rest := by
  unfold places
  by_cases some_place : offset = 0 <;> simp [some_place]

theorem inside_cons {data : List UInt8} (count : UInt8)
    (inside : ∀ j ∈ places (offset :: rest), j < data.length) : (offset ≠ 0 → offset.toNat < data.length) ∧
      ∀ j ∈ places rest, j < (if offset ≠ 0 then data.set offset.toNat count else data).length := by
  rw [places_cons] at inside
  refine ⟨?_,?_⟩
  · intro set
    rw [if_pos set] at inside
    exact inside _ List.mem_cons_self
  · intro j member
    have below : j < data.length := by
      apply inside
      split
      · exact List.mem_cons_of_mem _ member
      · exact member
    split
    · rwa [length_set]
    · exact below

theorem setCounters_round (offset respOffset : UInt16) (rest : List (UInt16 × UInt16)) (found : Option (List UInt8))
    (inside : offset ≠ 0 → offset.toNat < data.length) :
    setCounters count ((offset,respOffset) :: rest) ⟨data,found⟩ = (storeResp found respOffset count).bind fun found =>
      setCounters count rest ⟨if offset ≠ 0 then data.set offset.toNat count else data,found⟩ := by
  have kept : ¬ (offset ≠ 0 ∧ offset.toNat ≥ data.length) := fun ⟨set,beyond⟩ => Nat.not_lt_of_le beyond (inside set)
  have written : storeBeacon data offset count = some (if offset ≠ 0 then data.set offset.toNat count else data) := by
    unfold storeBeacon
    split
    · rename_i set
      exact if_pos (inside set)
    · rfl
  conv_lhs => unfold setCounters
  rw [if_neg kept,written,Option.bind_some]

theorem setCounters_inside
    (inBeacon : ∀ j ∈ places (pairs.map Prod.fst), j < data.length)
    (inResp : ∀ resp, found = some resp → ∀ p ∈ pairs, p.2.toNat < resp.length) :
    setCounters count pairs ⟨data,found⟩ = some ⟨writeAll count (places (pairs.map Prod.fst)) data,
      found.map (writeAll count (pairs.map fun p => p.2.toNat))⟩ := by
  induction pairs generalizing data found with
  | nil => cases found <;> rfl
  | cons p rest ih =>
    obtain ⟨offset,respOffset⟩ := p
    obtain ⟨first,later⟩ := inside_cons count inBeacon
    rw [List.map_cons,places_cons]
    rw [setCounters_round offset respOffset rest found first]
    have beaconWritten : writeAll count (places (rest.map Prod.fst)) (if offset ≠ 0 then data.set offset.toNat count else data) =
        writeAll count (if offset ≠ 0 then offset.toNat :: places (rest.map Prod.fst) else places (rest.map Prod.fst)) data := by
      split <;> rfl
    cases found with
    | none =>
      have nothing : storeResp none respOffset count = some none := rfl
      have unused : ∀ resp, (none : Option (List UInt8)) = some resp → ∀ p ∈ rest, p.2.toNat < resp.length :=
        fun _ impossible => (nomatch impossible)
      rw [nothing,Option.bind_some,ih later unused,beaconWritten]
      rfl
    | some resp =>
      have respFirst : respOffset.toNat < resp.length := inResp resp rfl (offset,respOffset) List.mem_cons_self
      have respLater : ∀ r, some (resp.set respOffset.toNat count) = some r → ∀ p ∈ rest, p.2.toNat < r.length := by
        intro r same p member
        rw [← Option.some.inj same,length_set]
        exact inResp resp rfl p (List.mem_cons_of_mem _ member)
      have stored : storeResp (some resp) respOffset count = some (some (resp.set respOffset.toNat count)) :=
        congrArg (Option.map some) (if_pos respFirst)
      rw [stored,Option.bind_some,ih later respLater,beaconWritten]
      rfl

theorem setCounters_outside (inBeacon : ∀ j ∈ places (pairs.map Prod.fst), j < data.length)
    (member : p ∈ pairs) (beyond : resp.length ≤ p.2.toNat) : setCounters count pairs ⟨data,some resp⟩ = none := by
  induction pairs generalizing data resp with
  | nil => cases member
  | cons q rest ih =>
    obtain ⟨offset,respOffset⟩ := q
    obtain ⟨first,later⟩ := inside_cons count inBeacon
    rw [setCounters_round offset respOffset rest (some resp) first]
    by_cases inside : respOffset.toNat < resp.length
    · have stored : storeResp (some resp) respOffset count = some (some (resp.set respOffset.toNat count)) :=
        congrArg (Option.map some) (if_pos inside)
      rw [stored,Option.bind_some]
      cases List.mem_cons.mp member with
      | inl here =>
        subst here
        exact absurd inside (Nat.not_lt_of_le beyond)
      | inr there => exact ih later there (by rwa [length_set])
    · have stored : storeResp (some resp) respOffset count = none := congrArg (Option.map some) (if_neg inside)
      rw [stored]
      rfl

theorem writeAll_counted (inside : ∀ j ∈ places offsets, j < data.length) :
    Counted offsets count data (writeAll count (places offsets) data) := by
  refine ⟨⟨writeAll_length _ _ _,?_⟩,?_⟩
  · intro j other
    rw [writeAll_get,if_neg (fun both => other both.1)]
  · intro j member
    rw [writeAll_get,if_pos ⟨member,inside j member⟩]

end loop

section beacons
variable {vif : Vif n} {beacon : Beacon n}

theorem pairs_fst (beacon : Beacon n) (resp : Option (ProbeResp n)) :
    (offsetPairs beacon resp).map Prod.fst = beacon.csaCounterOffsets.toList := by
  refine List.ext_getElem (by simp [offsetPairs]) ?_
  intro i _ _
  simp [offsetPairs]

theorem pairs_snd (beacon : Beacon n) (resp : ProbeResp n) :
    (offsetPairs beacon (some resp)).map Prod.snd = resp.csaCounterOffsets.toList := by
  refine List.ext_getElem (by simp [offsetPairs]) ?_
  intro i _ _
  simp [offsetPairs]

def respPlaces (resp : ProbeResp n) : List Nat := resp.csaCounterOffsets.toList.map UInt16.toNat

theorem setCsa_inside (found : beacon.data vif.type = some data)
    (inBeacon : ∀ j ∈ places beacon.csaCounterOffsets.toList, j < data.length)
    (inResp : ∀ resp, usedResp vif.type vif.probeResp = some resp → ∀ j ∈ respPlaces resp, j < resp.data.length) :
    ieee80211SetCsa vif.type vif.probeResp beacon = some
      (beacon.setData (writeAll beacon.csaCurrentCounter (places beacon.csaCounterOffsets.toList) data) vif.type,
        match usedResp vif.type vif.probeResp with
        | none => vif.probeResp
        | some resp => some {resp with data := writeAll beacon.csaCurrentCounter (respPlaces resp) resp.data}) := by
  unfold ieee80211SetCsa
  rw [found]
  dsimp only
  rw [← pairs_fst beacon (usedResp vif.type vif.probeResp)] at inBeacon ⊢
  cases used : usedResp vif.type vif.probeResp with
  | none =>
    rw [used] at inBeacon
    have unused : ∀ resp, (none : Option (List UInt8)) = some resp → ∀ p ∈ offsetPairs beacon none, p.2.toNat < resp.length :=
      fun _ impossible => (nomatch impossible)
    rw [Option.map_none,setCounters_inside inBeacon unused]
    rfl
  | some resp =>
    rw [used] at inBeacon
    have asked : vif.probeResp = some resp := by
      unfold usedResp at used
      split at used
      · exact used
      · cases used
    have places : (offsetPairs beacon (some resp)).map (fun p => p.2.toNat) = respPlaces resp := by
      unfold respPlaces
      rw [← pairs_snd beacon resp,List.map_map]
      rfl
    have inside : ∀ data, some resp.data = some data → ∀ p ∈ offsetPairs beacon (some resp), p.2.toNat < data.length := by
      intro _ same p member
      rw [← Option.some.inj same]
      exact inResp resp used _ (places ▸ mem_map_of_mem member)
    rw [Option.map_some,setCounters_inside inBeacon inside,places,asked]
    rfl

theorem usedResp_data (used : usedResp vif.type vif.probeResp = some resp) : ∃ data, beacon.data vif.type = some data := by
  unfold usedResp at used
  split at used
  · rename_i ap
    rw [beq_iff_eq.mp ap]
    exact ⟨_,rfl⟩
  · cases used

theorem places_set (member : j ∈ places offsets) : j ≠ 0 ∧ j ∈ offsets.map UInt16.toNat := by
  obtain ⟨_,listed,rfl⟩ := mem_map.mp member
  obtain ⟨listed,set⟩ := mem_filter.mp listed
  refine ⟨?_,mem_map_of_mem listed⟩
  intro zero
  exact absurd (UInt16.toNat_inj.mp zero) (of_decide_eq_true set)

theorem places_other (other : j ∉ places offsets) (member : j ∈ offsets.map UInt16.toNat) :
    j = 0 ∧ (0 : UInt16) ∈ offsets := by
  obtain ⟨offset,listed,rfl⟩ := mem_map.mp member
  by_cases zero : offset = 0
  · subst zero
    exact ⟨rfl,listed⟩
  · exact absurd (mem_map_of_mem (mem_filter.mpr ⟨listed,decide_eq_true zero⟩)) other

theorem firstCounter_reads (inside : ∀ j ∈ places beacon.csaCounterOffsets.toList, j < data.length) :
    firstCounter beacon data ≠ none := by
  unfold firstCounter
  cases first : beacon.csaCounterOffsets[0]? with
  | none => simp
  | some offset =>
    rw [Option.getD_some]
    by_cases zero : offset = 0
    · rw [if_pos zero]
      nofun
    rw [if_neg zero]
    have listed : offset ∈ beacon.csaCounterOffsets.toList := by
      rw [Vector.mem_toList_iff]
      exact Vector.mem_of_getElem? first
    have below := inside offset.toNat (mem_map_of_mem (mem_filter.mpr ⟨listed,decide_eq_true zero⟩))
    rw [if_neg (by omega),List.getElem?_eq_getElem below]
    nofun

theorem complete_reads (inside : ∀ data, beacon.data vif.type = some data → ∀ j ∈ places beacon.csaCounterOffsets.toList, j < data.length) :
    ieee80211CsaIsComplete {vif with beacon := some beacon} ≠ none := by
  unfold ieee80211CsaIsComplete
  split
  · nofun
  dsimp only
  cases type : vif.type with
  | ap =>
    cases tail : beacon.tail with
    | none => nofun
    | some data =>
      have found : beacon.data vif.type = some data := by
        rw [type]
        exact congrArg (fun tail => some (Option.getD tail [])) tail
      exact firstCounter_reads (inside data found)
  | adhoc | meshPoint => exact firstCounter_reads (inside beacon.head (by rw [type]; rfl))
  | other => nofun

theorem set_csa_exact (vif : Vif n) (beacon : Beacon n) : OnlyCounters vif beacon ↔ Fits vif beacon := by
  constructor
  · rintro ⟨⟨_,_,ran,beaconWritten,-,respWritten,-⟩,-⟩
    have inBeacon : ∀ data, beacon.data vif.type = some data → ∀ j ∈ places beacon.csaCounterOffsets.toList, j < data.length := by
      intro data found j member
      obtain ⟨data',-,counted⟩ := beaconWritten data found
      rw [← counted.frame.1]
      exact (List.getElem?_eq_some_iff.mp (counted.counted j member)).1
    refine ⟨inBeacon,?_⟩
    intro resp used
    obtain ⟨data,found⟩ : ∃ data, beacon.data vif.type = some data := usedResp_data used
    have inResp : ∀ offset ∈ resp.csaCounterOffsets.toList, offset.toNat < resp.data.length := by
      intro offset member
      by_contra beyond
      rw [← pairs_snd beacon resp] at member
      obtain ⟨p,listed,rfl⟩ := mem_map.mp member
      have inPairs := inBeacon data found
      rw [← pairs_fst beacon (some resp)] at inPairs
      unfold ieee80211SetCsa at ran
      rw [found] at ran
      dsimp only at ran
      rw [used,Option.map_some,setCounters_outside inPairs listed (Nat.le_of_not_lt beyond)] at ran
      cases ran
    intro offset member
    refine ⟨inResp offset member,?_⟩
    rintro rfl
    have run := setCsa_inside found (inBeacon data found) (fun other same => by
      rw [used] at same
      cases same
      intro j listed
      obtain ⟨offset,member,rfl⟩ := mem_map.mp listed
      exact inResp offset member)
    rw [ran,used] at run
    obtain ⟨data',same,counted⟩ := respWritten resp used
    have written : some {resp with data := data'} =
        some {resp with data := writeAll beacon.csaCurrentCounter (respPlaces resp) resp.data} :=
      same.symm.trans (congrArg Prod.snd (Option.some.inj run))
    have content : data' = writeAll beacon.csaCurrentCounter (respPlaces resp) resp.data :=
      congrArg ProbeResp.data (Option.some.inj written)
    have kept := counted.frame.2 0 (fun listed => (places_set listed).1 rfl)
    rw [← kept,content,writeAll_get,if_pos ⟨mem_map_of_mem member,inResp 0 member⟩]
  intro fits
  refine ⟨?_,complete_reads fits.inBeacon⟩
  cases found : beacon.data vif.type with
  | none =>
    have unused : usedResp vif.type vif.probeResp = none := by
      cases used : usedResp vif.type vif.probeResp with
      | none => rfl
      | some resp =>
        obtain ⟨data,some_data⟩ : ∃ data, beacon.data vif.type = some data := usedResp_data used
        rw [found] at some_data
        cases some_data
    refine ⟨beacon,vif.probeResp,?_,nofun,fun _ => rfl,?_,fun _ => rfl⟩
    · unfold ieee80211SetCsa
      rw [found]
    · intro resp used
      rw [unused] at used
      cases used
  | some data =>
    have inResp : ∀ resp, usedResp vif.type vif.probeResp = some resp → ∀ j ∈ respPlaces resp, j < resp.data.length := by
      intro resp used j listed
      obtain ⟨offset,member,rfl⟩ := mem_map.mp listed
      exact (fits.inResp resp used offset member).1
    refine ⟨_,_,setCsa_inside found (fits.inBeacon data found) inResp,?_,nofun,?_,?_⟩
    · intro _ same
      cases same
      exact ⟨_,rfl,writeAll_counted (fits.inBeacon data found)⟩
    · intro resp used
      refine ⟨writeAll beacon.csaCurrentCounter (respPlaces resp) resp.data,by rw [used],⟨writeAll_length _ _ _,?_⟩,?_⟩
      · intro j other
        rw [writeAll_get]
        split
        · rename_i both
          obtain ⟨rfl,listed⟩ := places_other other both.1
          exact ((fits.inResp resp used 0 listed).2 rfl).symm
        · rfl
      · intro j listed
        have member := (places_set listed).2
        rw [writeAll_get,if_pos ⟨member,inResp resp used j member⟩]
    · intro unused
      rw [unused]

end beacons

def sampleBeacon : Beacon 2 := ⟨[0x80,0],some [37,3,0,11,5],#v[4,0],4⟩
def sampleResp : ProbeResp 2 := ⟨#v[6,0],[0x50,0,37,3,0,11,5]⟩
def sampleVif : Vif 2 := ⟨.ap,true,some sampleBeacon,some sampleResp⟩

theorem second_counter_missing : ¬ OnlyCounters sampleVif sampleBeacon := by
  rintro ⟨⟨_,_,ran,-,-,written,-⟩,-⟩
  have value : ieee80211SetCsa .ap (some sampleResp) sampleBeacon =
      some ({sampleBeacon with tail := some [37,3,0,11,4]},some {sampleResp with data := [4,0,37,3,0,11,4]}) := rfl
  obtain ⟨data',same,counted⟩ := written sampleResp rfl
  have result : some {sampleResp with data := [4,0,37,3,0,11,4]} = some {sampleResp with data := data'} :=
    (congrArg Prod.snd (Option.some.inj (value.symm.trans ran))).trans same
  have content : [4,0,37,3,0,11,4] = data' := congrArg ProbeResp.data (Option.some.inj result)
  have first := counted.frame.2 0 (by decide)
  rw [← content] at first
  exact absurd first (by decide)

end Mac80211.CsaCounters

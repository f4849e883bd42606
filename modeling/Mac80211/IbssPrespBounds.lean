import Mac80211.IbssPresp
import Mac80211.Tlv

namespace Mac80211.Ibss
open Tlv (encode encodeAll Short storeAll)
open Tkip (putLe16 putLe32)
open List (append_assoc length_append append_nil length_drop flatMap_nil flatMap_cons flatMap_append mem_cons)

section bounds
variable (hw : Hw) (capa mask : HtCapa) (a : Announced) (ieLen : UInt8) (extra : List UInt8) (csa : Option CsaSettings)

def hasHt : Bool :=
  !(a.chandef.width == .noHt20 || a.chandef.width == .w5 || a.chandef.width == .w10) && (hw.bands a.chandef.band).htCap.htSupported

def hasVht : Bool := hasHt hw a && (a.chandef.width != .w20 && a.chandef.width != .w40 && (hw.bands a.chandef.band).vhtCap.vhtSupported)

def pieces : List (List UInt8) :=
  [fixedPart hw a,ssidElement a,(rateElements hw a).1,dsParams hw a,ibssParams,csaElement hw csa,(rateElements hw a).2,extra,
    htElements hw capa mask a,if hw.queues ≥ 4 then addWmmInfoIe 0 else []]

-- none if a write is outside of the frame_len bytes.
def written : Option (List UInt8) := storeAll (List.replicate (frameLen ieLen) 0) 0 (pieces hw capa mask a extra csa)

def rates : List UInt8 := (usableRates hw a.chandef).map (rateByte a.basicRates (chandefGetShift a.chandef))

def beforeCsa : List (UInt8 × List UInt8) :=
  [(eidSsid,a.ssid),(eidSuppRates,(rates hw a).take 8)] ++
    (if (hw.bands a.chandef.band).is2GHz then [(eidDsParams,[hw.frequencyToChannel a.chandef.centerFreq])] else []) ++ [(eidIbssParams,[0,0])]

def csaData (csa : CsaSettings) : List UInt8 := [if csa.blockTx then 1 else 0,hw.frequencyToChannel csa.chandef.centerFreq,csa.count]

def front : List (UInt8 × List UInt8) :=
  beforeCsa hw a ++ (csa.map fun csa => (eidChannelSwitch,csaData hw csa)).toList ++
    if (rates hw a).length > 8 then [(eidExtSuppRates,(rates hw a).drop 8)] else []

def back : List (UInt8 × List UInt8) :=
  let sband := hw.bands a.chandef.band
  let htCap := applyHtcapOverrides capa mask sband.htCap
  (if hasHt hw a then
    [(eidHtCapability,(ieBuildHtCap htCap htCap.cap).drop 2),(eidHtOperation,(ieBuildHtOper hw sband.htCap a.chandef 0).drop 2)] else []) ++
    (if hasVht hw a then
      [(eidVhtCapability,(ieBuildVhtCap sband.vhtCap sband.vhtCap.cap).drop 2),(eidVhtOperation,(ieBuildVhtOper hw a.chandef).drop 2)] else []) ++
    if hw.queues ≥ 4 then [(eidVendorSpecific,(addWmmInfoIe 0).drop 2)] else []

structure InBounds : Prop where
  inside : written hw capa mask a ieLen extra csa ≠ none
  complete : ∃ front back, Short front ∧ Short back ∧
    (ibssPresp hw capa mask a extra csa).head.drop 36 = encodeAll front ++ extra ++ encodeAll back
  count : ∀ offset, (ibssPresp hw capa mask a extra csa).csaCounterOffset = some offset → ∃ settings es after, csa = some settings ∧
    (ibssPresp hw capa mask a extra csa).head = fixedPart hw a ++ encodeAll es ++ encode (eidChannelSwitch,csaData hw settings) ++ after ∧
    offset = (fixedPart hw a ++ encodeAll es).length + 4

-- The elements for VHT and WMM take what the others leave of frame_len.
def FitsFrame : Prop :=
  (if hasVht hw a then 21 else 0) + (if hw.queues ≥ 4 then 9 else 0) ≤
    (32 - a.ssid.length) + (32 - (usableRates hw a.chandef).length) + (if (usableRates hw a.chandef).length > 8 then 0 else 2) +
      (if (hw.bands a.chandef.band).is2GHz then 0 else 3) + (if csa.isSome then 0 else 5) + if hasHt hw a then 0 else 52

instance : Decidable (FitsFrame hw a csa) := inferInstanceAs (Decidable (_ ≤ _))

variable {hw capa mask a ieLen extra csa}

theorem encode_of (n : Nat) (bytes : List UInt8) (shape : bytes = eid :: UInt8.ofNat n :: bytes.drop 2)
    (length : bytes.length = n + 2) : encode (eid,bytes.drop 2) = bytes := by
  have data : (bytes.drop 2).length = n := by rw [length_drop,length,Nat.add_sub_cancel]
  rw [encode,data]
  exact shape.symm

variable (hw a) in
theorem fixedPart_length : (fixedPart hw a).length = 36 := by
  simp [fixedPart,putLe16,putLe64,putLe32]

theorem htCap_length (htCap : HtCap) (cap : UInt16) : (ieBuildHtCap htCap cap).length = 28 := by simp [ieBuildHtCap,putLe16]

theorem htOper_length (htCap : HtCap) (chandef : Chan.Chandef) (prot : UInt16) : (ieBuildHtOper hw htCap chandef prot).length = 24 := by
  simp [ieBuildHtOper,putLe16]

theorem vhtCap_length (vhtCap : VhtCap) (cap : UInt32) : (ieBuildVhtCap vhtCap cap).length = 14 := by simp [ieBuildVhtCap,putLe32]

theorem back_encoded :
    encodeAll (back hw capa mask a) = htElements hw capa mask a ++ if hw.queues ≥ 4 then addWmmInfoIe 0 else [] := by
  have ht (htCap : HtCap) (cap : UInt16) := encode_of 26 (ieBuildHtCap htCap cap) rfl (htCap_length htCap cap)
  have oper (htCap : HtCap) := encode_of 22 (ieBuildHtOper hw htCap a.chandef 0) rfl (htOper_length ..)
  have vht (vhtCap : VhtCap) (cap : UInt32) := encode_of 12 (ieBuildVhtCap vhtCap cap) rfl (vhtCap_length vhtCap cap)
  have vhtOper := encode_of 5 (ieBuildVhtOper hw a.chandef) rfl rfl
  have wmm := encode_of 7 (addWmmInfoIe 0) rfl rfl
  simp only [back,encodeAll,flatMap_append,apply_ite (List.flatMap encode),flatMap_cons,flatMap_nil,append_nil,ht,oper,vht,
    vhtOper,wmm]
  congr 1
  symm
  change (if hasHt hw a then _ else _) = _
  unfold hasVht
  cases hasHt hw a with
  | false => rfl
  | true => rfl

theorem beforeCsa_encoded : encodeAll (beforeCsa hw a) = ssidElement a ++ (rateElements hw a).1 ++ dsParams hw a ++ ibssParams := by
  have first : encode (eidSuppRates,(rates hw a).take 8) = (rateElements hw a).1 := by
    rw [encode,List.length_take]
    rfl
  simp only [beforeCsa,encodeAll,flatMap_append,apply_ite (List.flatMap encode),flatMap_cons,flatMap_nil,append_nil,first]
  rfl

theorem front_encoded : encodeAll (front hw a csa) = encodeAll (beforeCsa hw a) ++ csaElement hw csa ++ (rateElements hw a).2 := by
  have ext : (if (rates hw a).length > 8 then encode (eidExtSuppRates,(rates hw a).drop 8) else []) = (rateElements hw a).2 := by
    rw [encode,length_drop]
    rfl
  have csa : (csa.map fun csa => (eidChannelSwitch,csaData hw csa)).toList.flatMap encode = csaElement hw csa := by cases csa <;> rfl
  simp only [front,encodeAll,flatMap_append,apply_ite (List.flatMap encode),flatMap_cons,flatMap_nil,append_nil,ext,csa]

theorem head_encoded : (ibssPresp hw capa mask a extra csa).head =
    fixedPart hw a ++ encodeAll (front hw a csa) ++ extra ++ encodeAll (back hw capa mask a) := by
  simp only [Presp.head,ibssPresp,front_encoded,beforeCsa_encoded,back_encoded,append_assoc]

theorem pieces_flatten : (pieces hw capa mask a extra csa).flatten = (ibssPresp hw capa mask a extra csa).head := by
  simp only [pieces,Presp.head,ibssPresp,List.flatten_cons,List.flatten_nil,append_nil,append_assoc]

theorem rates_length (band : (hw.bands a.chandef.band).bitrates.length ≤ 32) :
    (rates hw a).length = (usableRates hw a.chandef).length ∧ (usableRates hw a.chandef).length ≤ 32 := by
  have few := List.length_filter_le (fun rate : Rate × Nat => hw.rateFlags a.chandef.width &&& rate.1.flags == hw.rateFlags a.chandef.width)
    (hw.bands a.chandef.band).bitrates.zipIdx
  rw [List.length_zipIdx] at few
  exact ⟨List.length_map _,Nat.le_trans few band⟩

theorem front_short (ssid : a.ssid.length ≤ 32) (band : (hw.bands a.chandef.band).bitrates.length ≤ 32) : Short (front hw a csa) := by
  obtain ⟨_,_⟩ := rates_length band
  intro e member
  simp only [front,beforeCsa,csaData,List.mem_append,mem_cons,List.mem_ite_nil_right,Option.mem_toList,Option.map_eq_some_iff] at member
  grind

theorem back_short : Short (back hw capa mask a) := by
  intro e member
  have data {bytes : List UInt8} {n : Nat} (length : bytes.length = n) (few : n < 256) : (bytes.drop 2).length < 256 := by
    rw [length_drop]
    omega
  simp only [back,List.mem_append,mem_cons,List.mem_ite_nil_right,List.not_mem_nil,or_false] at member
  rcases member with (⟨_,rfl | rfl⟩ | ⟨_,rfl | rfl⟩) | ⟨_,rfl⟩
  · exact data (htCap_length ..) (by decide)
  · exact data (htOper_length ..) (by decide)
  · exact data (vhtCap_length ..) (by decide)
  · exact data (n := 7) rfl (by decide)
  · exact data (n := 9) rfl (by decide)

theorem back_length : (encodeAll (back hw capa mask a)).length =
    (if hasHt hw a then 52 else 0) + (if hasVht hw a then 21 else 0) + if hw.queues ≥ 4 then 9 else 0 := by
  simp only [back,encodeAll,flatMap_append,apply_ite (List.flatMap encode),flatMap_cons,flatMap_nil,append_nil,
    length_append,apply_ite List.length,encode,List.length_cons,length_drop,htCap_length,htOper_length,vhtCap_length]
  rfl

theorem front_length (band : (hw.bands a.chandef.band).bitrates.length ≤ 32) :
    (encodeAll (front hw a csa)).length = 8 + a.ssid.length + (usableRates hw a.chandef).length +
      (if (hw.bands a.chandef.band).is2GHz then 3 else 0) + (if csa.isSome then 5 else 0) + if (usableRates hw a.chandef).length > 8 then 2 else 0 := by
  have csa : (csaElement hw csa).length = if csa.isSome then 5 else 0 := by cases csa <;> rfl
  have name : (ssidElement a).length = a.ssid.length + 2 := length_append.trans (Nat.add_comm ..)
  have ds : (dsParams hw a).length = if (hw.bands a.chandef.band).is2GHz then 3 else 0 := apply_ite List.length ..
  have first : (rateElements hw a).1.length = min 8 (rates hw a).length + 2 := by
    rw [← List.length_take]
    exact length_append.trans (Nat.add_comm ..)
  have ext : (rateElements hw a).2.length = if (rates hw a).length > 8 then (rates hw a).length - 8 + 2 else 0 := by
    rw [← length_drop]
    exact apply_ite List.length ..
  obtain ⟨count,_⟩ := rates_length band
  have params : ibssParams.length = 4 := rfl
  rw [front_encoded,beforeCsa_encoded]
  simp only [length_append,csa,name,ds,first,ext,count,params]
  split_ifs <;> omega

section
variable (ssid : a.ssid.length ≤ 32) (band : (hw.bands a.chandef.band).bitrates.length ≤ 32) (whole : extra.length = ieLen.toNat)
include ssid band whole

theorem head_length : (ibssPresp hw capa mask a extra csa).head.length ≤ frameLen ieLen ↔ FitsFrame hw a csa := by
  obtain ⟨_,_⟩ := rates_length band
  rw [head_encoded,length_append,length_append,length_append,fixedPart_length,front_length band,back_length,whole,frameLen,FitsFrame]
  split_ifs <;> omega

theorem ibss_presp_in_bounds_iff : InBounds hw capa mask a ieLen extra csa ↔ FitsFrame hw a csa := by
  have inside : written hw capa mask a ieLen extra csa ≠ none ↔ FitsFrame hw a csa := by
    rw [written,Tlv.storeAll_fits (Nat.zero_le _),pieces_flatten,List.length_replicate,Nat.zero_add,head_length ssid band whole]
  refine ⟨fun sound => inside.mp sound.inside,fun fits => ⟨inside.mpr fits,?_,?_⟩⟩
  · refine ⟨front hw a csa,back hw capa mask a,front_short ssid band,back_short,?_⟩
    rw [head_encoded,append_assoc,append_assoc,← fixedPart_length hw a,List.drop_left,append_assoc]
  · intro _ set
    obtain ⟨settings,same,rfl⟩ := Option.map_eq_some_iff.mp set
    refine ⟨settings,beforeCsa hw a,(rateElements hw a).2 ++ extra ++ encodeAll (back hw capa mask a),same,?_,?_⟩
    · rw [head_encoded,front_encoded,same]
      simp only [append_assoc]
      rfl
    · rw [beforeCsa_encoded]
      simp only [append_assoc]

end

end bounds

def quick : Hw := {
  addr := macAddr 2 0 0 0 0 1
  bands := fun _ => ⟨false,List.replicate 12 ⟨0,60⟩,⟨true,0,0,0,⟨Vector.replicate 10 0,Vector.replicate 6 0⟩⟩,⟨true,0,Vector.replicate 8 0⟩⟩
  queues := 4
  rateFlags := fun _ => 0
  frequencyToChannel := fun freq => UInt8.ofNat ((freq - 5000) / 5)
  chandefCreate := fun channel _ => ⟨channel.chan,channel.band,channel.centerFreq,.w20,channel.centerFreq,0⟩
  getChandefType := fun _ => .ht20}

def plain : HtCapa := ⟨0,0,Vector.replicate 10 0⟩
def named (chandef : Chan.Chandef) : Announced := ⟨macAddr 2 0 0 0 0 2,List.replicate 32 97,100,0,2,0,chandef⟩
def twentyMhz : Announced := named ⟨36,1,5180,.w20,5180,0⟩
def eightyMhz : Announced := named ⟨36,1,5180,.w80,5210,0⟩
def moving : CsaSettings := ⟨true,⟨40,1,5200,.w20,5200,0⟩,3⟩

theorem ibss_presp_in_bounds_sample : InBounds quick plain plain twentyMhz 0 [] (some moving) :=
  (ibss_presp_in_bounds_iff (by decide) (by decide) rfl).mpr (by decide)

theorem vht_overflows :
    eightyMhz.ssid.length ≤ 32 ∧ (quick.bands 1).bitrates.length ≤ 32 ∧ ¬InBounds quick plain plain eightyMhz 0 [] none :=
  ⟨by decide,by decide,fun sound => sound.inside (by decide +kernel)⟩
end Mac80211.Ibss

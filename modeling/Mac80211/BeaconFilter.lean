import Mac80211.BeaconEcho
import Mac80211.MlmeConnectionRun

namespace Mac80211.BeaconRx
open Chan (Chandef Width)
open Mlme (Link Sta configBw trackedChandef)
open Option (isSome_map all_some map_some)

section afterTest
variable {r : Radio} {a : Answers} {elems : Elems}

section
variable (r : Radio) (elems : Elems) (capab : UInt16) (a : Answers) (s : Sdata)

theorem afterTest_crc :
    (afterTest r elems capab a s).beaconCrc = s.beaconCrc ∧ (afterTest r elems capab a s).beaconCrcValid = s.beaconCrcValid := by
  have kept : (trackBandwidth r elems a (applyElems r elems capab a s)).1.beaconCrc = s.beaconCrc ∧
      (trackBandwidth r elems a (applyElems r elems capab a s)).1.beaconCrcValid = s.beaconCrcValid := ⟨rfl,rfl⟩
  unfold afterTest
  generalize trackBandwidth r elems a (applyElems r elems capab a s) = out at *
  obtain ⟨_,_ | _⟩ := out <;> exact kept

theorem afterTest_echo :
    (afterTest r elems capab a s).associated = none ∨ Echo r elems capab (afterTest r elems capab a s) := by
  have ok := @configBw_ok r.cfg r.sband a.ctx (elems.htCapElem.map htCap) (elems.htOperation.map htOper) (elems.vhtOperation.map vhtOper) s.link
    (s.station.map Station.sta)
  unfold afterTest trackBandwidth
  dsimp only [applyElems]
  generalize configBw r.cfg r.sband a.ctx (s.station.map Station.sta) (elems.htCapElem.map htCap) (elems.htOperation.map htOper)
    (elems.vhtOperation.map vhtOper) s.link = out at *
  obtain ⟨link,_,_ | _⟩ := out
  · obtain ⟨flags,place,ht⟩ := ok rfl
    have band : link.chandef.band = s.link.chandef.band := congrArg Mlme.Channel.band place
    refine .inr ⟨rfl,?_,?_,?_,?_⟩
    · intro wmm
      dsimp only at *
      rw [flags] at wmm
      rw [if_neg (by simp [wmm])]
      exact staWmmParams_again _ _
    · dsimp only at *
      rw [band]
    · intro on data member
      rw [flags] at on
      obtain ⟨entry,mode⟩ := ht on (htOper data) (by rw [Option.mem_def.mp member]; rfl)
      rw [isSome_map] at entry
      refine ⟨?_,mode⟩
      rw [isSome_map,isSome_map]
      exact entry
    · dsimp only at *
      rw [place]
      exact handlePwrConstr_level _ _ _
  · exact .inl rfl

end

theorem applyElems_same (echo : Echo r elems capab s)
    (csa : ∀ cbss ∈ s.associated, staProcessChanswitch r a elems cbss.band s.link s.csa = s.csa) : applyElems r elems capab a s = s := by
  obtain ⟨beacon,wmm,erp,-,-⟩ := echo
  have params : (applyElems r elems capab a s).wmm = s.wmm := by
    unfold applyElems
    cases off : s.link.flags.disableWmm with
    | true => rfl
    | false => exact wmm off
  have switch : (applyElems r elems capab a s).csa = s.csa := by
    unfold applyElems
    cases known : s.associated with
    | none => rfl
    | some cbss => exact csa cbss known
  have period : (applyElems r elems capab a s).dtimPeriod = s.dtimPeriod := if_pos beacon
  calc applyElems r elems capab a s
      = {s with
          csa := (applyElems r elems capab a s).csa
          wmm := (applyElems r elems capab a s).wmm
          haveBeacon := true
          dtimPeriod := (applyElems r elems capab a s).dtimPeriod
          erp := handleBssCapability s.link.chandef.band capab elems.erpInfo} := rfl
    _ = s := by rw [switch,params,period,← beacon,← erp]

theorem trackBandwidth_quiet (echo : Echo r elems capab s) (quiet : bandwidthQuiet r elems s.link = true) : trackBandwidth r elems a s = (s,none) := by
  have same : configBw r.cfg r.sband a.ctx (s.station.map Station.sta) (elems.htCapElem.map htCap) (elems.htOperation.map htOper)
      (elems.vhtOperation.map vhtOper) s.link = (s.link,s.station.map Station.sta,none) := by
    unfold bandwidthQuiet at quiet
    cases on : s.link.flags.disableHt with
    | true => exact configBw_off (.inl on)
    | false =>
      cases oper : elems.htOperation with
      | none => exact configBw_off (.inr rfl)
      | some data =>
        obtain ⟨entry,mode⟩ := echo.ht on data oper
        obtain ⟨sta,known⟩ := Option.isSome_iff_exists.mp entry
        rw [on,oper,Bool.false_or,all_some,decide_eq_true_eq] at quiet
        rw [known]
        unfold configBw
        dsimp only [map_some]
        rw [if_neg (by simp [on]),if_pos quiet,← mode]
  unfold trackBandwidth
  rw [same]
  dsimp only
  have entries : (s.station.map fun old => {old with sta := (s.station.map Station.sta).getD old.sta}) = s.station := by
    cases s.station <;> rfl
  rw [entries]

theorem trackBandwidth_loud (ok : (trackBandwidth r elems a s).2 = none) (same : (trackBandwidth r elems a s).1.link = s.link) :
    bandwidthQuiet r elems s.link = true := by
  unfold trackBandwidth at *
  dsimp only at *
  unfold bandwidthQuiet
  cases on : s.link.flags.disableHt with
  | true => rfl
  | false =>
    rw [Bool.false_or]
    cases oper : elems.htOperation with
    | none => rfl
    | some =>
      rw [oper,map_some] at ok same
      rw [all_some,decide_eq_true_eq]
      cases entry : s.station with
      | none =>
        rw [entry] at ok
        unfold configBw at ok
        dsimp only [Option.map_none] at ok
        rw [if_neg (by simp [on])] at ok
        cases ok
      | some =>
        rw [entry,map_some] at ok same
        obtain ⟨quiet,-⟩ | ⟨-,moved⟩ := configBw_cases on ok
        · exact quiet
        · rw [moved] at same
          exact congrArg Link.chandef same

theorem handleOpmode_quiet (station : Option Station) : station.map (handleOpmode elems) = station ↔ nssQuiet elems station = true := by
  unfold nssQuiet handleOpmode
  cases station with
  | none => exact iff_of_true rfl rfl
  | some sta =>
    cases opmodeNss elems.opmodeNotif with
    | none => exact iff_of_true rfl rfl
    | some =>
      cases sta
      simp

theorem handled_quiet {before : Option Station} (handled : before.map (handleOpmode elems) = station) : nssQuiet elems station = true := by
  rw [← handled]
  unfold nssQuiet handleOpmode
  cases before with
  | none => rfl
  | some =>
    cases opmodeNss elems.opmodeNotif with
    | none => rfl
    | some => exact decide_eq_true rfl

theorem afterTest_quiet (echo : Echo r elems capab s) (associated : s.associated.isSome = true) :
    afterTest r elems capab a s = s ↔ quiet r elems a s = true := by
  obtain ⟨cbss,known⟩ := Option.isSome_iff_exists.mp associated
  unfold quiet
  rw [known,all_some,Bool.and_eq_true,Bool.and_eq_true,← processChanswitch_quiet,← handleOpmode_quiet]
  constructor
  · intro same
    unfold afterTest at same
    have csa : (trackBandwidth r elems a (applyElems r elems capab a s)).1.csa = staProcessChanswitch r a elems cbss.band s.link s.csa := by
      unfold trackBandwidth applyElems
      rw [known]
    have links : trackBandwidth r elems a (applyElems r elems capab a s) = ({applyElems r elems capab a s with
          link := (trackBandwidth r elems a s).1.link
          station := (trackBandwidth r elems a s).1.station},(trackBandwidth r elems a s).2) := rfl
    have loud := @trackBandwidth_loud r a elems s
    rw [links] at csa same
    generalize trackBandwidth r elems a s = out at *
    obtain ⟨_,none | _⟩ := out
    · have csas := congrArg Sdata.csa same
      have links := congrArg Sdata.link same
      have stations := congrArg Sdata.station same
      refine ⟨⟨csa.symm.trans csas,loud rfl links⟩,?_⟩
      rw [handleOpmode_quiet]
      exact handled_quiet stations
    · have gone : none = s.associated := congrArg Sdata.associated same
      rw [known] at gone
      cases gone
  · intro ⟨⟨csa,bandwidth⟩,nss⟩
    have applied : applyElems r elems capab a s = s := by
      refine applyElems_same echo fun cbss' member => ?_
      cases known.symm.trans member
      exact csa
    unfold afterTest
    rw [applied,trackBandwidth_quiet echo bandwidth]
    dsimp only
    rw [nss,handlePwrConstr_same _ _ echo.power]

end afterTest

def component (r : Radio) : ChangeFilter.Component Sdata Input UInt32 where
  heard := heard
  prepare s i := beforeTest r i s
  cached s := if s.beaconCrcValid then some s.beaconCrc else none
  key i := (parsed r i.frame).2
  handle := handle r

-- The checksums of some beacons are equal only if it is taken over the same bytes.
def CollisionFree (r : Radio) (is : List Input) : Prop :=
  ∀ i ∈ is, ∀ j ∈ is, (parsed r i.frame).2 = (parsed r j.frame).2 → hashedBytes r i.frame = hashedBytes r j.frame

def reflects (r : Radio) (s : Sdata) (i : Input) : Prop :=
  s.associated = none ∨ Echo r (parsed r i.frame).1 (le16 i.frame.capabInfo) s

def skipped (r : Radio) (s : Sdata) (i : Input) : Bool :=
  heard s i && (parsed r i.frame).2 = (beforeTest r i s).beaconCrc && (beforeTest r i s).beaconCrcValid

def skipsQuiet (r : Radio) : Sdata → List Input → Bool
  | _,[] => true
  | s,i :: rest =>
    (!skipped r s i || quiet r (parsed r i.frame).1 i.answers (beforeTest r i s)) && skipsQuiet r (rxMgmtBeacon true r s i) rest

section filter

theorem covered_field {α : Type} (field : Elems → α) (same : elems.covered = elems'.covered) (plain : ∀ elems, field elems.covered = field elems) :
    field elems = field elems' :=
  (plain elems).symm.trans ((congrArg field same).trans (plain elems'))

theorem echo_covered (same : elems.covered = elems'.covered) (echo : Echo r elems capab s) : Echo r elems' capab s := by
  obtain ⟨beacon,wmm,erp,ht,power⟩ := echo
  have wmmParam : elems.wmmParam = elems'.wmmParam := covered_field Elems.wmmParam same fun _ => rfl
  have erpInfo : elems.erpInfo = elems'.erpInfo := covered_field Elems.erpInfo same fun _ => rfl
  have htOperation : elems.htOperation = elems'.htOperation := covered_field Elems.htOperation same fun _ => rfl
  have country : elems.countryElem = elems'.countryElem := covered_field Elems.countryElem same fun _ => rfl
  have pwrConstr : elems.pwrConstrElem = elems'.pwrConstrElem := covered_field Elems.pwrConstrElem same fun _ => rfl
  have cisco : elems.ciscoDtpcElem = elems'.ciscoDtpcElem := covered_field Elems.ciscoDtpcElem same fun _ => rfl
  rw [wmmParam] at wmm
  rw [erpInfo] at erp
  rw [htOperation] at ht
  rw [country,pwrConstr,cisco] at power
  exact ⟨beacon,wmm,erp,ht,power⟩

structure Untouched (s after : Sdata) : Prop where
  associated : after.associated = s.associated
  link : after.link = s.link
  station : after.station = s.station
  haveBeacon : after.haveBeacon = s.haveBeacon
  wmm : after.wmm = s.wmm
  erp : after.erp = s.erp
  power : after.power = s.power

theorem beforeTest_untouched (r : Radio) (i : Input) (s : Sdata) : Untouched s (beforeTest r i s) := by
  unfold beforeTest handleNoa
  dsimp only
  split_ifs <;> exact ⟨rfl,rfl,rfl,rfl,rfl,rfl,rfl⟩

theorem beforeTest_cached (r : Radio) (i : Input) (s : Sdata) : (beforeTest r i s).beaconCrcValid = false ∨
    (beforeTest r i s).beaconCrcValid = s.beaconCrcValid ∧ (beforeTest r i s).beaconCrc = s.beaconCrc := by
  unfold beforeTest handleNoa
  dsimp only
  split_ifs
  · exact .inr ⟨rfl,rfl⟩
  · exact .inr ⟨rfl,rfl⟩
  · exact .inr ⟨rfl,rfl⟩
  · exact .inr ⟨rfl,rfl⟩
  · exact .inl rfl
  · exact .inl rfl

theorem reflects_untouched (untouched : Untouched s after) (reflected : reflects r s i) : reflects r after i := by
  obtain ⟨associated,link,station,haveBeacon,wmm,erp,power⟩ := untouched
  obtain gone | ⟨beacon,params,basics,ht,levels⟩ := reflected
  · exact .inl (associated.trans gone)
  · rw [← haveBeacon] at beacon
    rw [← link,← wmm] at params
    rw [← link,← erp] at basics
    rw [← link,← station] at ht
    rw [← link,← power] at levels
    exact .inr ⟨beacon,params,basics,ht,levels⟩

theorem component_reflecting (free : CollisionFree r is) :
    (component r).Reflecting is (reflects r) (fun s i => quiet r (parsed r i.frame).1 i.answers s = true) where
  handled s i _ _ := by
    obtain ⟨crc,valid⟩ := afterTest_crc r (parsed r i.frame).1 (le16 i.frame.capabInfo) i.answers {beforeTest r i s with
      beaconCrc := (parsed r i.frame).2
      beaconCrcValid := true}
    refine ⟨?_,afterTest_echo _ _ _ _ _⟩
    dsimp only [component,handle]
    rw [crc,valid,if_pos rfl]
  prepared s i := by
    dsimp only [component]
    obtain off | ⟨valid,crc⟩ := beforeTest_cached r i s
    · rw [off]
      exact .inl rfl
    · rw [valid,crc]
      exact .inr rfl
  kept s i p reflected := reflects_untouched (beforeTest_untouched r i s) reflected
  exact s i p member member' hears key cached reflected := by
    dsimp only [component] at *
    have associated : (beforeTest r i s).associated.isSome = true := by
      rw [(beforeTest_untouched r i s).associated]
      unfold heard at hears
      simp only [Bool.and_eq_true,decide_eq_true_eq] at hears
      rw [← isSome_map,hears.2]
      rfl
    obtain gone | echo := reflected
    · rw [gone] at associated
      cases associated
    obtain ⟨covered,capab⟩ := hashed_covered r (free p member' i member key)
    have echo := echo_covered covered echo
    rw [capab] at echo
    have stored : {beforeTest r i s with beaconCrc := (parsed r i.frame).2,beaconCrcValid := true} = beforeTest r i s := by
      split_ifs at cached with valid
      rw [← Option.some.inj cached,← valid]
    unfold handle
    rw [stored]
    exact afterTest_quiet echo associated

theorem component_cached (s : Sdata) (crc : UInt32) : (component r).cached s = some crc ↔ s.beaconCrcValid = true ∧ s.beaconCrc = crc := by
  dsimp only [component]
  by_cases valid : s.beaconCrcValid = true
  · rw [if_pos valid,Option.some.injEq]
    exact (and_iff_right valid).symm
  · rw [if_neg valid]
    exact iff_of_false nofun fun both => valid both.1

theorem component_skips (s : Sdata) (i : Input) : (component r).skips s i = skipped r s i := by
  have cached := @component_cached r (beforeTest r i s) (parsed r i.frame).2
  unfold ChangeFilter.Component.skips skipped
  rw [Bool.eq_iff_iff,Bool.and_eq_true,Bool.and_eq_true,Bool.and_eq_true,decide_eq_true_eq,decide_eq_true_eq,and_assoc]
  refine and_congr_right fun _ => cached.trans ?_
  rw [and_comm,eq_comm]

theorem rxMgmtBeacon_unfiltered (s : Sdata) (i : Input) : rxMgmtBeacon false r s i = (component r).unfiltered s i := by
  unfold ChangeFilter.Component.unfiltered rxMgmtBeacon component
  cases hears : heard s i <;> simp [hears]

theorem rxMgmtBeacon_filtered (s : Sdata) (i : Input) : rxMgmtBeacon true r s i = (component r).filtered s i := by
  unfold ChangeFilter.Component.filtered
  rw [component_skips,← rxMgmtBeacon_unfiltered]
  unfold skipped rxMgmtBeacon
  cases hears : heard s i with
  | false => simp
  | true =>
    dsimp only [component]
    simp only [Bool.not_true,Bool.true_and,Bool.false_and,if_neg Bool.false_ne_true]

theorem skipsQuiet_quiets (is : List Input) (s : Sdata) :
    skipsQuiet r s is = true ↔ (component r).Quiets (fun s i => quiet r (parsed r i.frame).1 i.answers s = true) s is := by
  induction is generalizing s with
  | nil => exact iff_of_true rfl trivial
  | cons i rest ih =>
    unfold skipsQuiet ChangeFilter.Component.Quiets
    rw [Bool.and_eq_true,ih,component_skips,rxMgmtBeacon_filtered]
    refine and_congr_left fun _ => ?_
    dsimp only [component]
    cases skipped r s i <;> simp

theorem beacon_filter_transparent (r : Radio) (is : List Input) (free : CollisionFree r is) (s : Sdata) (fresh : s.beaconCrcValid = false) :
    (∀ n, rxBeacons true r s (is.take n) = rxBeacons false r s (is.take n)) ↔ skipsQuiet r s is = true := by
  have filtered : rxMgmtBeacon true r = (component r).filtered := by
    funext s i
    exact rxMgmtBeacon_filtered s i
  have unfiltered : rxMgmtBeacon false r = (component r).unfiltered := by
    funext s i
    exact rxMgmtBeacon_unfiltered s i
  have known : (component r).Known is (reflects r) s := by
    intro k cached
    dsimp only [component] at cached
    rw [fresh] at cached
    cases cached
  unfold rxBeacons
  rw [filtered,unfiltered,skipsQuiet_quiets]
  exact ChangeFilter.Component.transparent (component_reflecting free) known is fun _ member => member

end filter

section device
set_option maxRecDepth 2000

def device : Radio where
  cfg := Mlme.wide
  sband := Mlme.band5GHz
  findIe id ies := ((Tlv.elements ies.length ies).find? fun e => e.1 = id).map Prod.snd
  getP2pAttr _ := none
  operatingClassToBand _ := some 1
  getChannel freq := some ⟨(freq - 5000) / 5,1,freq⟩
  frequencyToChannel freq := (freq - 5000) / 5
  maxPower _ := 20
  p2p := false
  confTx := true
  queues := 4
  uapsdQueues := 0
  switchesWithContexts := true
  gMode := false
  userPowerLevel := none

def on80MHz : Chandef := {Mlme.noHtChandef Mlme.channel36 with width := .w80,centerFreq1 := 5210}

def associatedOn80MHz : Sdata where
  associated := some ⟨7,1⟩
  link := ⟨Mlme.noFlags,⟨false,false⟩,on80MHz,true,0⟩
  station := some ⟨⟨7,.bw80,.bw80⟩,2⟩
  beaconCrc := 0
  beaconCrcValid := false
  p2pNoaIndex := none
  haveBeacon := false
  dtimPeriod := 0
  csa := ⟨false,none,false,false,false,none,false⟩
  wmm := ⟨none,0,List.replicate 4 ⟨2,1023,15,0,false,false⟩,true⟩
  erp := ⟨false,false,true⟩
  power := ⟨none,20⟩

def beacon (erp : UInt8) (more : List (UInt8 × List UInt8)) : Input where
  frame := ⟨7,5180,(100,0),(0x11,0x01),([(eidTim,[0,2,0,0]),(eidErpInfo,[erp]),
    (eidHtCapability,0x02 :: List.replicate 25 0),(eidHtOperation,36 :: 1 :: List.replicate 20 0)] ++ more).flatMap Tlv.encode⟩
  answers := ⟨false,⟨on80MHz,.unreplaced,[]⟩,fun _ => true,fun _ => true,true⟩

def vhtWidth (width seg : UInt8) : UInt8 × List UInt8 := (eidVhtOperation,[width,seg,0,0,0])

def steady : List Input :=
  [beacon 0 [vhtWidth 1 42],beacon 0 [vhtWidth 1 42],beacon 3 [vhtWidth 1 42,(eidOpmodeNotif,[0x10])],beacon 3 [vhtWidth 1 42]]

theorem beacon_filter_transparent_sample :
    rxBeacons true device associatedOn80MHz (steady.take 2) = rxBeacons false device associatedOn80MHz (steady.take 2) ∧
    rxBeacons true device associatedOn80MHz (steady.take 4) = rxBeacons false device associatedOn80MHz (steady.take 4) := by
  have transparent := (beacon_filter_transparent device steady (by unfold CollisionFree; decide +kernel) associatedOn80MHz rfl).mpr (by decide +kernel)
  exact ⟨transparent 2,transparent 4⟩

def narrowed : List Input := [beacon 0 [vhtWidth 1 42],beacon 0 [vhtWidth 0 0]]

-- VHT operation is not among the elements the checksum is taken over.
theorem narrowed_vht_unnoticed :
    ¬(∀ (r : Radio) (is : List Input) (s : Sdata), CollisionFree r is → s.beaconCrcValid = false →
      rxBeacons true r s is = rxBeacons false r s is) ∧
    (rxBeacons true device associatedOn80MHz narrowed).link.chandef.width = .w80 ∧
    (rxBeacons false device associatedOn80MHz narrowed).link.chandef.width = .w40 := by
  have kept : (rxBeacons true device associatedOn80MHz narrowed).link.chandef.width = .w80 := by decide +kernel
  have moved : (rxBeacons false device associatedOn80MHz narrowed).link.chandef.width = .w40 := by decide +kernel
  refine ⟨?_,kept,moved⟩
  intro always
  have same := always device narrowed associatedOn80MHz (by unfold CollisionFree; decide +kernel) rfl
  rw [same,moved] at kept
  cases kept

end device

end Mac80211.BeaconRx

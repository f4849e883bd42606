import Mac80211.BeaconHandlers
import Mac80211.ChangeFilter

namespace Mac80211.BeaconRx
open Chan (Chandef Width)
open Mlme (Channel HtCap HtOperation VhtOperation Link Sta Errno configBw)

structure Frame where
  bssid : Nat
  freq : Nat
  beaconInt : UInt8 × UInt8
  capabInfo : UInt8 × UInt8
  ies : List UInt8

structure Input where
  frame : Frame
  answers : Answers

structure Cbss where
  bssid : Nat
  band : Nat

structure Station where
  sta : Sta
  rxNss : Nat

structure Sdata where
  associated : Option Cbss
  link : Link
  station : Option Station
  beaconCrc : UInt32
  beaconCrcValid : Bool
  p2pNoaIndex : Option UInt8
  haveBeacon : Bool
  dtimPeriod : UInt8
  csa : Csa
  wmm : Wmm
  erp : Erp
  power : Power

def htCap (data : List UInt8) : HtCap := ⟨data.getD 0 0 &&& 0x02 != 0⟩
def htOper (data : List UInt8) : HtOperation := ⟨data.getD 0 0,data.getD 1 0,le16 (data.getD 2 0,data.getD 3 0)⟩
def vhtOper (data : List UInt8) : VhtOperation := ⟨data.getD 0 0,data.getD 1 0,data.getD 2 0⟩

def control (c : Chandef) : Channel := ⟨c.chan,c.band,c.centerFreq⟩

-- What is done for every beacon before the checksum is looked at.
def handleNoa (r : Radio) (f : Frame) (s : Sdata) : Sdata :=
  if !r.p2p then s
  else if s.p2pNoaIndex = r.getP2pAttr f.ies then s
  else {s with p2pNoaIndex := r.getP2pAttr f.ies,beaconCrcValid := false}

def beforeTest (r : Radio) (i : Input) (s : Sdata) : Sdata :=
  let s := handleNoa r i.frame s
  if s.csa.csaWaitingBcn then {s with csa := chswitchPostBeacon i.answers s.csa} else s

def setDisassoc (r : Radio) (s : Sdata) : Sdata := {s with
  associated := none
  station := none
  link := {s.link with flags := Mlme.noFlags,htCapa := ⟨false,false⟩,chanctx := false}
  p2pNoaIndex := none
  haveBeacon := false
  dtimPeriod := 0
  csa := {s.csa with csaActive := false,csaWaitingBcn := false,csaIgnoredSameChan := false,csaBlockTx := false}
  wmm := setWmmDefault r s.link.chandef.band {s.wmm with qos := false}
  erp := ⟨false,false,false⟩
  power := {s.power with apPowerLevel := none}}

def firstDtimPeriod (tim : Option (List UInt8)) : UInt8 :=
  match tim with
  | none => 1
  | some tim => if tim.getD 1 0 = 0 then 1 else tim.getD 1 0

-- What ieee80211_rx_mgmt_beacon does from the test to ieee80211_config_bw.
def applyElems (r : Radio) (elems : Elems) (capab : UInt16) (a : Answers) (s : Sdata) : Sdata := {s with
  csa := match s.associated with
    | none => s.csa
    | some cbss => staProcessChanswitch r a elems cbss.band s.link s.csa
  wmm := if s.link.flags.disableWmm then s.wmm else staWmmParams r elems.wmmParam s.wmm
  haveBeacon := true
  dtimPeriod := if s.haveBeacon then s.dtimPeriod else firstDtimPeriod elems.tim
  erp := handleBssCapability s.link.chandef.band capab elems.erpInfo}

def trackBandwidth (r : Radio) (elems : Elems) (a : Answers) (s : Sdata) : Sdata × Option Errno :=
  let (link,sta,err) := configBw r.cfg r.sband a.ctx (s.station.map Station.sta) (elems.htCapElem.map htCap)
    (elems.htOperation.map htOper) (elems.vhtOperation.map vhtOper) s.link
  ({s with link := link,station := s.station.map fun old => {old with sta := sta.getD old.sta}},err)

def handleOpmode (elems : Elems) (sta : Station) : Station :=
  match opmodeNss elems.opmodeNotif with
  | none => sta
  | some nss => {sta with rxNss := nss}

def afterTest (r : Radio) (elems : Elems) (capab : UInt16) (a : Answers) (s : Sdata) : Sdata :=
  let channel := control s.link.chandef
  match trackBandwidth r elems a (applyElems r elems capab a s) with
  | (s,some _) => setDisassoc r s
  | (s,none) => {s with
      station := s.station.map (handleOpmode elems)
      power := handlePwrConstr r channel capab elems (r.maxPower a.ctx.chandef) s.power}

def parsed (r : Radio) (f : Frame) : Elems × UInt32 :=
  parseElemsCrc r.findIe f.ies (crc32Be 0 [f.beaconInt.1,f.beaconInt.2,f.capabInfo.1,f.capabInfo.2])

def heard (s : Sdata) (i : Input) : Bool :=
  s.link.chanctx && i.frame.freq = s.link.chandef.centerFreq && (s.associated.map Cbss.bssid) = some i.frame.bssid

def handle (r : Radio) (s : Sdata) (i : Input) : Sdata :=
  afterTest r (parsed r i.frame).1 (le16 i.frame.capabInfo) i.answers {s with
    beaconCrc := (parsed r i.frame).2
    beaconCrcValid := true}

-- For an interface with no association in progress; filter says whether there is the test.
def rxMgmtBeacon (filter : Bool) (r : Radio) (s : Sdata) (i : Input) : Sdata :=
  if !heard s i then s
  else
    let s := beforeTest r i s
    if filter && (parsed r i.frame).2 = s.beaconCrc && s.beaconCrcValid then s
    else handle r s i

def rxBeacons (filter : Bool) (r : Radio) (s : Sdata) (is : List Input) : Sdata :=
  is.foldl (rxMgmtBeacon filter r) s

def Elems.covered (elems : Elems) : Elems := {elems with
  tim := none
  vhtOperation := none
  opmodeNotif := none
  secChanOffs := none
  meshChanswParamsIe := none
  wideBwChanswIe := none}

def hashedBytes (r : Radio) (f : Frame) : List UInt8 :=
  f.beaconInt.1 :: f.beaconInt.2 :: f.capabInfo.1 :: f.capabInfo.2 :: Tlv.encodeAll (parseWalk r.findIe f.ies).covered

structure Agrees (w v : Walk) : Prop where
  elems : w.elems.covered = v.elems.covered
  seen : ∀ id, careAbout id = true → w.seen.contains id = v.seen.contains id

section elements
variable {findIe : UInt8 → List UInt8 → Option (List UInt8)} {id : UInt8}

theorem once_vendor (vendor : id = eidVendorSpecific ∨ id = eidCiscoVendorSpecific) : once id = false := by
  obtain rfl | rfl := vendor <;> rfl

section
variable {P : (Elems → Elems) → Prop}

theorem every_ite [Decidable c] {b : Option (Elems → Elems)} (yes : c → ∀ put ∈ a, P put)
    (no : ¬c → ∀ put ∈ b, P put) : ∀ put ∈ (if c then a else b), P put := by
  by_cases holds : c
  · rw [if_pos holds]
    exact yes holds
  · rw [if_neg holds]
    exact no holds

theorem every_some (holds : P put) : ∀ p ∈ some put, P p := by
  intro p member
  cases member
  exact holds

theorem every_none : ∀ p ∈ none, P p := nofun

end

theorem found_covered (findIe : UInt8 → List UInt8 → Option (List UInt8)) (id : UInt8) (data : List UInt8) :
    ∀ put ∈ found findIe id data, ∀ elems, (put elems).covered = (put elems.covered).covered := by
  unfold found
  cases findIe eidWideBwChannelSwitch data
  all_goals
    repeat' apply every_ite <;> intro _
    all_goals first
      | exact every_none
      | exact every_some fun elems => rfl

theorem found_uncovered (findIe : UInt8 → List UInt8 → Option (List UInt8)) (plain : hashed id data = false) :
    ∀ put ∈ found findIe id data, ∀ elems, (put elems).covered = elems.covered := by
  unfold hashed at plain
  simp only [Bool.or_eq_false_iff] at plain
  obtain ⟨⟨uncared,vendor⟩,cisco⟩ := plain
  have other (covered : UInt8) (care : careAbout covered = true) : id ≠ covered := by
    rintro rfl
    exact Bool.false_ne_true (uncared.symm.trans care)
  have noWmm (isVendor : id = eidVendorSpecific) (five wmm param : Bool) (holds : (microsoft data && five && wmm && param) = true) : False := by
    rw [decide_eq_true isVendor,Bool.true_and] at vendor
    rw [vendor] at holds
    cases holds
  have noDtpc (isCisco : id = eidCiscoVendorSpecific) (oui : ¬data.take 4 ≠ [0x00,0x40,0x96,0x00]) (size : ¬data.length ≠ 6) : False := by
    rw [decide_eq_true isCisco,Bool.true_and] at cisco
    have holds : dtpc data = true := by
      unfold dtpc
      rw [decide_eq_true (not_not.mp oui),decide_eq_true (not_not.mp size)]
      rfl
    exact Bool.false_ne_true (cisco.symm.trans holds)
  unfold found
  dsimp only
  rw [if_neg (other eidErpInfo rfl),if_neg (other eidHtCapability rfl),if_neg (other eidHtOperation rfl),
    if_neg (other eidChannelSwitch rfl),if_neg (other eidExtChanswitchAnn rfl),if_neg (other eidCountry rfl),
    if_neg (other eidPwrConstraint rfl)]
  cases findIe eidWideBwChannelSwitch data
  all_goals
    repeat' apply every_ite <;> intro _
    all_goals first
      | exact every_none
      | exact every_some fun elems => rfl
      | rename_i isVendor wmm
        exact (noWmm isVendor _ _ _ wmm).elim
      | rename_i isCisco _ oui size
        exact (noDtpc isCisco oui size).elim

theorem parseElem_uncovered (agrees : Agrees w v) (plain : hashed e.1 e.2 = false) :
    Agrees (parseElem findIe w e) v ∧ (parseElem findIe w e).covered = w.covered := by
  unfold parseElem
  by_cases again : (once e.1 && w.seen.contains e.1) = true
  · rw [if_pos again]
    exact ⟨agrees,rfl⟩
  rw [if_neg again,plain]
  cases known : found findIe e.1 e.2 with
  | none => exact ⟨⟨agrees.elems,agrees.seen⟩,rfl⟩
  | some put =>
    refine ⟨⟨(found_uncovered findIe plain put known w.elems).trans agrees.elems,fun id care => ?_⟩,rfl⟩
    have other : id ≠ e.1 := by
      rintro rfl
      unfold hashed at plain
      rw [care] at plain
      cases plain
    rw [← agrees.seen id care]
    simp [other]

theorem parseElem_covered (agrees : Agrees w v) (covers : hashed e.1 e.2 = true) (taken : ¬(once e.1 && w.seen.contains e.1) = true) :
    Agrees (parseElem findIe w e) (parseElem findIe v e) ∧ (parseElem findIe w e).covered = w.covered ++ [e] := by
  have same : (once e.1 && w.seen.contains e.1) = (once e.1 && v.seen.contains e.1) := by
    unfold hashed at covers
    cases care : careAbout e.1 with
    | true => rw [agrees.seen e.1 care]
    | false =>
      rw [care,Bool.false_or] at covers
      have vendor : e.1 = eidVendorSpecific ∨ e.1 = eidCiscoVendorSpecific := by
        simp only [Bool.or_eq_true,Bool.and_eq_true,decide_eq_true_eq] at covers
        exact covers.imp And.left And.left
      rw [once_vendor vendor]
      rfl
  unfold parseElem
  rw [← same,if_neg taken,if_neg taken,covers]
  cases known : found findIe e.1 e.2 with
  | none => exact ⟨⟨agrees.elems,agrees.seen⟩,rfl⟩
  | some put =>
    refine ⟨⟨?_,fun id care => ?_⟩,rfl⟩
    · have covered := found_covered findIe e.1 e.2 put known
      exact (covered w.elems).trans ((congrArg (fun elems => (put elems).covered) agrees.elems).trans (covered v.elems).symm)
    · have before := agrees.seen id care
      simp only [List.contains_cons]
      rw [before]

theorem parseElem_replay (agrees : Agrees w (w.covered.foldl (parseElem findIe) startWalk)) (e : UInt8 × List UInt8) :
    Agrees (parseElem findIe w e) ((parseElem findIe w e).covered.foldl (parseElem findIe) startWalk) := by
  by_cases taken : (once e.1 && w.seen.contains e.1) = true
  · have same : parseElem findIe w e = w := by
      unfold parseElem
      rw [if_pos taken]
    rw [same]
    exact agrees
  · cases covers : hashed e.1 e.2 with
    | false =>
      obtain ⟨kept,same⟩ := @parseElem_uncovered findIe _ _ _ agrees covers
      rw [same]
      exact kept
    | true =>
      obtain ⟨kept,more⟩ := @parseElem_covered findIe _ _ _ agrees covers taken
      rw [more,List.foldl_append]
      exact kept

theorem foldl_replay (es : List (UInt8 × List UInt8)) (agrees : Agrees w (w.covered.foldl (parseElem findIe) startWalk)) :
    Agrees (es.foldl (parseElem findIe) w) ((es.foldl (parseElem findIe) w).covered.foldl (parseElem findIe) startWalk) := by
  induction es generalizing w with
  | nil => exact agrees
  | cons e rest ih => exact ih (parseElem_replay agrees e)

theorem foldl_short (es : List (UInt8 × List UInt8)) (short : Tlv.Short es) (before : Tlv.Short w.covered) :
    Tlv.Short (es.foldl (parseElem findIe) w).covered := by
  induction es generalizing w with
  | nil => exact before
  | cons e rest ih =>
    refine ih (fun e member => short e (List.mem_cons_of_mem _ member)) ?_
    have first := short e (List.mem_cons_self ..)
    have more : Tlv.Short (if hashed e.1 e.2 then w.covered ++ [e] else w.covered) := by
      split_ifs
      · intro e' member
        cases List.mem_append.mp member with
        | inl old => exact before e' old
        | inr new =>
          rw [List.mem_singleton.mp new]
          exact first
      · exact before
    unfold parseElem
    by_cases taken : (once e.1 && w.seen.contains e.1) = true
    · rw [if_pos taken]
      exact before
    · rw [if_neg taken]
      cases found findIe e.1 e.2 <;> exact more

end elements

theorem hashed_covered (r : Radio) (same : hashedBytes r f = hashedBytes r g) :
    (parsed r f).1.covered = (parsed r g).1.covered ∧ f.capabInfo = g.capabInfo := by
  obtain ⟨-,-,first,second,elements⟩ := by simpa [hashedBytes] using same
  refine ⟨?_,Prod.ext first second⟩
  have covered : (parseWalk r.findIe f.ies).covered = (parseWalk r.findIe g.ies).covered :=
    Tlv.encodeAll_injective (foldl_short _ (Tlv.elements_short _ _) nofun) (foldl_short _ (Tlv.elements_short _ _) nofun) elements
  have replay (f : Frame) : Agrees (parseWalk r.findIe f.ies) ((parseWalk r.findIe f.ies).covered.foldl (parseElem r.findIe) startWalk) :=
    foldl_replay _ ⟨rfl,fun _ _ => rfl⟩
  have left := (replay f).elems
  rw [covered] at left
  exact left.trans (replay g).elems.symm

end Mac80211.BeaconRx

import Mac80211.BeaconRx
import Mac80211.MlmeConfigBw

namespace Mac80211.BeaconRx
open Chan (Chandef Width)
open Mlme (Cfg80211 Sband Channel Overrides HtCap HtOperation VhtOperation Link Sta StaFlags Chanctx Errno trackedChandef configBw chandefDowngrade)

-- ieee80211_sta_process_chanswitch changes nothing.
def csaQuiet (r : Radio) (a : Answers) (elems : Elems) (currentBand : Nat) (l : Link) (csa : Csa) : Bool :=
  a.scanning || csa.csaActive ||
    match parseChSwitchIe r elems currentBand l.flags l.chandef.width with
    | .nothing => true
    | .bad => csa.dropWork
    | .switch csaIe =>
      if !r.cfg.usable csaIe.chandef true then csa.dropWork
      else if csaIe.chandef = l.chandef then csa.csaIgnoredSameChan
      else !accepts r a csaIe.chandef && csa.dropWork

def bandwidthQuiet (r : Radio) (elems : Elems) (l : Link) : Bool :=
  l.flags.disableHt || elems.htOperation.all fun data =>
    (trackedChandef r.cfg r.sband (elems.htCapElem.map htCap) (htOper data) (elems.vhtOperation.map vhtOper) l).1 = l.chandef

def nssQuiet (elems : Elems) (station : Option Station) : Bool :=
  station.all fun sta => (opmodeNss elems.opmodeNotif).all fun nss => nss = sta.rxNss

def quiet (r : Radio) (elems : Elems) (a : Answers) (s : Sdata) : Bool :=
  (s.associated.all fun cbss => csaQuiet r a elems cbss.band s.link s.csa) && bandwidthQuiet r elems s.link && nssQuiet elems s.station

structure Echo (r : Radio) (elems : Elems) (capab : UInt16) (s : Sdata) : Prop where
  beacon : s.haveBeacon = true
  wmm : s.link.flags.disableWmm = false → staWmmParams r elems.wmmParam s.wmm = s.wmm
  erp : s.erp = handleBssCapability s.link.chandef.band capab elems.erpInfo
  ht : s.link.flags.disableHt = false → ∀ data ∈ elems.htOperation, s.station.isSome = true ∧ s.link.htOperationMode = (htOper data).operationMode
  power : ∀ level ∈ newApLevel r (control s.link.chandef) capab elems.countryElem elems.pwrConstrElem elems.ciscoDtpcElem,
    s.power.apPowerLevel = some level

section handlers
variable {r : Radio} {a : Answers} {elems : Elems} {l : Link} {csa : Csa} {capab : UInt16}

theorem processChanswitch_quiet (currentBand : Nat) : staProcessChanswitch r a elems currentBand l csa = csa ↔ csaQuiet r a elems currentBand l csa = true := by
  have dropped : {csa with dropWork := true} = csa ↔ csa.dropWork = true := by
    cases csa
    simp [eq_comm]
  have ignored : {csa with csaIgnoredSameChan := true} = csa ↔ csa.csaIgnoredSameChan = true := by
    cases csa
    simp [eq_comm]
  unfold staProcessChanswitch csaQuiet
  rw [Bool.or_eq_true,Bool.or_eq_true]
  by_cases scanning : a.scanning = true
  · rw [if_pos scanning]
    exact iff_of_true rfl (.inl (.inl scanning))
  rw [if_neg scanning]
  by_cases active : csa.csaActive = true
  · rw [if_pos active]
    exact iff_of_true rfl (.inl (.inr active))
  rw [if_neg active,or_iff_right (not_or.mpr ⟨scanning,active⟩)]
  cases parseChSwitchIe r elems currentBand l.flags l.chandef.width with
  | nothing => exact iff_of_true rfl rfl
  | bad => exact dropped
  | switch csaIe =>
    dsimp only
    by_cases unusable : (!r.cfg.usable csaIe.chandef true) = true
    · rw [if_pos unusable,if_pos unusable]
      exact dropped
    rw [if_neg unusable,if_neg unusable]
    by_cases same : csaIe.chandef = l.chandef
    · rw [if_pos same,if_pos same]
      exact ignored
    rw [if_neg same,if_neg same]
    cases accepts r a csaIe.chandef with
    | false => exact dropped
    | true =>
      refine iff_of_false (fun started => ?_) nofun
      have active' := congrArg Csa.csaActive started
      exact active active'.symm

theorem acParams_lastParamSet (uapsdQueues : UInt8) (bytes : List UInt8) (w : Wmm) : (acParams uapsdQueues bytes w).lastParamSet = w.lastParamSet := by
  fun_induction acParams uapsdQueues bytes w with
  | case1 _ _ _ _ _ _ _ _ _ _ _ _ ih => exact ih
  | case2 => rfl

theorem staWmmParams_known {param : List UInt8} (known : w.lastParamSet = some (param.getD 6 0 &&& 0x0f)) :
    staWmmParams r (some param) w = w := by
  unfold staWmmParams
  dsimp only
  rw [if_pos known]
  split_ifs <;> rfl

theorem staWmmParams_again (wmmParam : Option (List UInt8)) (w : Wmm) :
    staWmmParams r wmmParam (staWmmParams r wmmParam w) = staWmmParams r wmmParam w := by
  have fixed (same : staWmmParams r wmmParam w = w) : staWmmParams r wmmParam (staWmmParams r wmmParam w) = staWmmParams r wmmParam w :=
    congrArg (staWmmParams r wmmParam) same
  cases wmmParam with
  | none =>
    apply fixed
    unfold staWmmParams
    split_ifs <;> rfl
  | some param =>
    by_cases set : (!r.confTx || decide (r.queues < 4)) = true ∨ (decide (param.length < 8) || param.getD 5 0 != 1) = true ∨
      w.lastParamSet = some (param.getD 6 0 &&& 0x0f)
    · apply fixed
      unfold staWmmParams
      dsimp only
      obtain off | short | same := set
      · rw [if_pos off]
      · rw [if_pos short]
        split_ifs <;> rfl
      · rw [if_pos same]
        split_ifs <;> rfl
    · apply staWmmParams_known
      rw [not_or,not_or] at set
      obtain ⟨on,long,other⟩ := set
      unfold staWmmParams
      dsimp only
      rw [if_neg on,if_neg long,if_neg other]
      exact acParams_lastParamSet _ _ _

theorem handlePwrConstr_level (channel : Channel) (power : Int) (p : Power) :
    ∀ level ∈ newApLevel r channel capab elems.countryElem elems.pwrConstrElem elems.ciscoDtpcElem,
      (handlePwrConstr r channel capab elems power p).apPowerLevel = some level := by
  intro level member
  unfold handlePwrConstr
  rw [Option.mem_def.mp member]
  dsimp only
  by_cases same : p.apPowerLevel = some level
  · rw [if_pos same]
    exact same
  · rw [if_neg same]

theorem handlePwrConstr_same (channel : Channel) (power : Int)
    (known : ∀ level ∈ newApLevel r channel capab elems.countryElem elems.pwrConstrElem elems.ciscoDtpcElem, p.apPowerLevel = some level) :
    handlePwrConstr r channel capab elems power p = p := by
  unfold handlePwrConstr
  cases level : newApLevel r channel capab elems.countryElem elems.pwrConstrElem elems.ciscoDtpcElem with
  | none => rfl
  | some level' =>
    dsimp only
    rw [if_pos (known level' level)]

end handlers

section bandwidth
variable {cfg : Cfg80211} {sband : Sband} {ctx : Chanctx} {htCap : Option HtCap} {oper : Option HtOperation} {vht : Option VhtOperation}
variable {l : Link} {sta : Option Sta}

theorem downgrade_control (c : Chandef) : control (chandefDowngrade c).1 = control c := by
  unfold chandefDowngrade control
  cases c.width <;> rfl

theorem makeUsable_control {usable : Chandef → Bool} (fuel : Nat) (c : Chandef) (f : StaFlags) :
    control (Mlme.makeUsable usable fuel c f).1 = control c := by
  induction fuel generalizing c f with
  | zero => rfl
  | succ fuel ih =>
    rw [Mlme.makeUsable]
    split_ifs
    · rfl
    · rfl
    · exact (ih _ _).trans (downgrade_control c)

theorem restrict_control (b : Bool) (out : Chandef × StaFlags) : control (Mlme.restrict b out).1 = control out.1 := by
  cases b with
  | false => rfl
  | true => exact downgrade_control out.1

theorem htChandef_control (channel : Channel) (oper : HtOperation) : control (Mlme.htChandef channel oper) = channel := by
  unfold Mlme.htChandef
  split_ifs <;> rfl

theorem vhtChandef_control {channel : Channel} {chandef wide : Chandef} {vht : VhtOperation}
    (known : Mlme.vhtChandef cfg channel chandef vht = some wide) : control wide = channel := by
  unfold Mlme.vhtChandef at known
  split_ifs at known
  all_goals
    cases known
    rfl

theorem advertised_control (o : Overrides) (channel : Channel) (tracking : Bool) :
    control (Mlme.advertised cfg sband o channel htCap oper vht tracking).1 = channel := by
  unfold Mlme.advertised
  cases htCap with
  | none => rfl
  | some =>
    cases oper with
    | none => rfl
    | some oper =>
      cases vht with
      | none =>
        dsimp only
        split_ifs
        all_goals first
          | rfl
          | exact htChandef_control channel oper
      | some vht =>
        dsimp only
        cases known : Mlme.vhtChandef cfg channel (Mlme.htChandef channel oper) vht with
        | none =>
          split_ifs
          all_goals first
            | rfl
            | exact htChandef_control channel oper
        | some =>
          dsimp only
          split_ifs
          all_goals first
            | rfl
            | exact htChandef_control channel oper
            | exact vhtChandef_control known

theorem tracked_control (htCap : Option HtCap) (oper : HtOperation) (vht : Option VhtOperation) (l : Link) :
    control (trackedChandef cfg sband htCap oper vht l).1 = control l.chandef := by
  unfold trackedChandef Mlme.determineChantype
  dsimp only
  rw [restrict_control,restrict_control,restrict_control]
  generalize (if l.flags.disableVht then none else vht) = vht
  split_ifs
  · exact advertised_control _ _ _
  · exact (makeUsable_control _ _ _).trans (advertised_control _ _ _)

theorem configBw_cases {oper : HtOperation} {sta : Sta} (on : l.flags.disableHt = false)
    (ok : (configBw cfg sband ctx (some sta) htCap (some oper) vht l).2.2 = none) :
    (trackedChandef cfg sband htCap oper vht l).1 = l.chandef ∧
      configBw cfg sband ctx (some sta) htCap (some oper) vht l = ({l with htOperationMode := oper.operationMode},some sta,none) ∨
    (trackedChandef cfg sband htCap oper vht l).1 ≠ l.chandef ∧
      (configBw cfg sband ctx (some sta) htCap (some oper) vht l).1 = {l with
        htOperationMode := oper.operationMode
        chandef := (trackedChandef cfg sband htCap oper vht l).1} := by
  unfold configBw at *
  dsimp only at *
  rw [if_neg (by simp [on])] at ok ⊢
  generalize trackedChandef cfg sband htCap oper vht l = tracked at *
  obtain ⟨chandef,flags⟩ := tracked
  by_cases same : chandef = l.chandef
  · rw [if_pos same]
    exact .inl ⟨same,rfl⟩
  rw [if_neg same] at ok ⊢
  refine .inr ⟨same,?_⟩
  by_cases refused : flags ≠ {l.flags with disableWmm := false} ∨ (!cfg.valid chandef) = true
  · rw [if_pos refused] at ok
    cases ok
  rw [if_neg refused] at ok ⊢
  cases width : Mlme.rxBandwidth chandef.width with
  | none =>
    rw [width] at ok
    cases ok
  | some =>
    rw [width] at ok
    have moved := @Mlme.vifChangeBandwidth_moves cfg {l with htOperationMode := oper.operationMode} ctx chandef
    generalize Mlme.vifChangeBandwidth cfg ctx chandef {l with htOperationMode := oper.operationMode} = out at *
    obtain ⟨_,_ | _⟩ := out
    · exact moved rfl
    · cases ok

theorem configBw_off (off : l.flags.disableHt = true ∨ oper = none) : configBw cfg sband ctx sta htCap oper vht l = (l,sta,none) := by
  unfold configBw
  cases oper with
  | none => rfl
  | some =>
    dsimp only
    obtain off | none := off
    · rw [if_pos off]
    · cases none

theorem configBw_ok (ok : (configBw cfg sband ctx sta htCap oper vht l).2.2 = none) :
    (configBw cfg sband ctx sta htCap oper vht l).1.flags = l.flags ∧
    control (configBw cfg sband ctx sta htCap oper vht l).1.chandef = control l.chandef ∧
    (l.flags.disableHt = false → ∀ oper' ∈ oper, sta.isSome = true ∧
      (configBw cfg sband ctx sta htCap oper vht l).1.htOperationMode = oper'.operationMode) := by
  cases on : l.flags.disableHt with
  | true =>
    rw [configBw_off (.inl on)]
    exact ⟨rfl,rfl,nofun⟩
  | false =>
    cases oper with
    | none =>
      rw [configBw_off (.inr rfl)]
      exact ⟨rfl,rfl,nofun⟩
    | some oper =>
      cases sta with
      | none =>
        unfold configBw at ok
        dsimp only at ok
        rw [if_neg (by simp [on])] at ok
        cases ok
      | some =>
        obtain ⟨-,same⟩ | ⟨-,moved⟩ := configBw_cases on ok
        · rw [same]
          refine ⟨rfl,rfl,fun _ oper' member => ?_⟩
          cases member
          exact ⟨rfl,rfl⟩
        · rw [moved]
          refine ⟨rfl,tracked_control htCap oper vht l,fun _ oper' member => ?_⟩
          cases member
          exact ⟨rfl,rfl⟩

end bandwidth

end Mac80211.BeaconRx

import Mac80211.MlmeConfigBw
import Mac80211.MlmeKept

namespace Mac80211.Mlme
open Chan (Chandef Width)
open Transitions (Run)

-- Beacons with the same elements, each with the context and station entry it finds; false:
-- ieee80211_config_bw failed.
def neverDrops (cfg : Cfg80211) (sband : Sband) (bss : Bss) : List (Chanctx × Sta) → Link → Bool
  | [],_ => true
  | (ctx,sta) :: rest,l =>
    let out := configBw cfg sband ctx (some sta) bss.htCap bss.htOper bss.vhtOper l
    out.2.2.isNone && neverDrops cfg sband bss rest out.1

-- The association gives HT up, sets the channel up again, or can follow the AP.
def keepsAp (cfg : Cfg80211) (sband : Sband) (hw : Hw) (bss : Bss) (req : AssocRequest) (ctx : Chanctx) (l : Link) : Bool :=
  let flags := assocFlags sband hw req l.flags
  flags.disableHt || applyHtcapOverrides sband req.htCapa != sband.supWidth2040 || bss.htOper.all fun oper =>
    follows cfg bss oper ctx {l with flags := flags}

section beacons
variable {bss : Bss}

theorem neverDrops_plain (plain : l.flags.disableHt = true ∨ bss.htOper = none) (beacons : List (Chanctx × Sta)) :
    neverDrops cfg sband bss beacons l = true := by
  induction beacons with
  | nil => rfl
  | cons beacon rest ih =>
    have same : configBw cfg sband beacon.1 (some beacon.2) bss.htCap bss.htOper bss.vhtOper l = (l,some beacon.2,none) := by
      unfold configBw
      obtain ht | none := plain
      · cases bss.htOper with
        | none => rfl
        | some =>
          dsimp only
          rw [if_pos ht]
      · rw [none]
    unfold neverDrops
    rw [same]
    exact ih

section
variable (doc : Documented cfg sband) (known : bss.htCap = some cap) (known' : bss.htOper = some oper)
include doc known known'

theorem neverDrops_settled
    (beacons : List (Chanctx × Sta)) (tuned : Tuned cfg sband bss cap oper l) (fine : settled bss oper l = true) :
    neverDrops cfg sband bss beacons l = true := by
  induction beacons generalizing l with
  | nil => rfl
  | cons beacon rest ih =>
    obtain ⟨iff,after⟩ := configBw_tuned doc known known' tuned beacon.1 beacon.2
    have ok := iff.mpr (by simp [follows,fine])
    obtain ⟨-,tuned',fine'⟩ := after ok
    unfold neverDrops
    dsimp only
    rw [ok,Option.isNone_none,Bool.true_and]
    exact ih tuned' fine'

theorem neverDrops_tuned
    (tuned : Tuned cfg sband bss cap oper l) (beacon : Chanctx × Sta) (rest : List (Chanctx × Sta)) :
    neverDrops cfg sband bss (beacon :: rest) l = true ↔ follows cfg bss oper beacon.1 l = true := by
  obtain ⟨iff,after⟩ := configBw_tuned doc known known' tuned beacon.1 beacon.2
  unfold neverDrops
  rw [Bool.and_eq_true,Option.isNone_iff_eq_none,iff]
  refine ⟨And.left,fun fine => ⟨fine,?_⟩⟩
  obtain ⟨-,tuned',fine'⟩ := after (iff.mpr fine)
  exact neverDrops_settled doc known known' rest tuned' fine'

end

end beacons

section requests
variable {cfg : Cfg80211} {sband : Sband} {a : Setup} {bss : Bss}

theorem prepConnection_new (ok : (prepConnection cfg sband a bss false s).2 = none) :
    (prepChannel cfg sband bss a.use s.link).2 = none ∧
    (prepConnection cfg sband a bss false s).1.link = (prepChannel cfg sband bss a.use s.link).1 ∧
    hasSta bss.bssid (prepConnection cfg sband a bss false s).1 = true ∧
    (prepConnection cfg sband a bss false s).1.bssid = some bss.bssid := by
  unfold prepConnection at *
  simp only [Bool.false_and,Bool.not_false,Bool.true_and,Bool.true_or,if_true] at *
  split_ifs at ok ⊢ with none noMem failed
  unfold insertSta at *
  dsimp only at *
  split_ifs at ok ⊢ with free dup
  cases insert : a.insert with
  | some =>
    rw [insert] at ok
    cases ok
  | none =>
    refine ⟨by simpa using failed,rfl,?_,rfl⟩
    unfold hasSta
    rw [List.any_cons,decide_eq_true rfl,Bool.true_or]

theorem prepConnection_known (entry : hasSta bss.bssid s = true) (ok : (prepConnection cfg sband a bss true s).2 = none) :
    (isOverride sband s.link = false ∧ (prepConnection cfg sband a bss true s).1.link = s.link) ∨
    isOverride sband s.link = true ∧ (prepChannel cfg sband bss a.use s.link).2 = none ∧
      (prepConnection cfg sband a bss true s).1.link = (prepChannel cfg sband bss a.use s.link).1 := by
  unfold prepConnection at *
  rw [entry] at *
  cases override : isOverride sband s.link with
  | false =>
    rw [override] at ok
    refine .inl ⟨rfl,?_⟩
    split_ifs at ok ⊢
    rfl
  | true =>
    rw [override] at ok
    refine .inr ⟨rfl,?_⟩
    simp only [Bool.and_self,Bool.not_true,Bool.false_and,Bool.or_true,Bool.false_eq_true,if_true,if_false] at ok ⊢
    split_ifs at ok ⊢ with none failed
    exact ⟨by simpa using failed,rfl⟩

structure Begun (cfg : Cfg80211) (sband : Sband) (bss : Bss) (s : Sdata) : Prop where
  channel : ∃ l use, (prepChannel cfg sband bss use l).2 = none ∧ s.link = (prepChannel cfg sband bss use l).1
  entry : hasSta bss.bssid s = true
  bssid : s.bssid = some bss.bssid
  associated : s.associated = none
  assocData : s.assocData = none

theorem setDisassoc_associated (s : Sdata) : (setDisassoc s).associated = none := by
  unfold setDisassoc releaseChannel
  cases alone : s.associated with
  | none => exact alone
  | some => rfl

theorem Begun.apart (begun : Begun cfg sband bss s) (apart : Apart s s') : Begun cfg sband bss s' := by
  refine ⟨?_,?_,apart.bssid.trans begun.bssid,apart.associated.trans begun.associated,apart.assocData.trans begun.assocData⟩
  · rw [apart.link]
    exact begun.channel
  · unfold hasSta
    rw [apart.stas]
    exact begun.entry

theorem probeAuth_apart (proberesp ssid : Bool) (ok : (probeAuth proberesp ssid s).2 = none) : Apart s (probeAuth proberesp ssid s).1 := by
  cases data : s.authData with
  | none =>
    unfold probeAuth at ok
    rw [data] at ok
    cases ok
  | some =>
    obtain ⟨_,after,-⟩ := probeAuth_keeps proberesp ssid data
    rw [after]
    exact ⟨rfl,rfl,rfl,rfl,rfl⟩

theorem mgdAuth_begun {a : AuthAnswers} (ok : (mgdAuth cfg sband hw req a s).2 = none) :
    Begun cfg sband req.bss (mgdAuth cfg sband hw req a s).1 := by
  unfold mgdAuth at *
  cases known : req.alg with
  | none =>
    rw [known] at ok
    cases ok
  | some alg =>
    rw [known] at ok
    dsimp only at *
    split_ifs at ok ⊢ with noWep noMem other
    have free : (startAuth s.mem.next req alg {s with mem := s.mem.alloc .auth}).assocData = none := by
      unfold startAuth
      rw [setDisassoc_assocData]
      exact (destroyAuthData_assocData false _).trans (free_of_quiet other).2
    have alone : (startAuth s.mem.next req alg {s with mem := s.mem.alloc .auth}).associated = none := setDisassoc_associated _
    generalize startAuth s.mem.next req alg {s with mem := s.mem.alloc .auth} = started at *
    obtain ⟨-,-,assoc,associated⟩ := @prepConnection_same cfg sband a.setup req.bss false started
    have new := @prepConnection_new cfg sband a.setup req.bss started
    generalize prepConnection cfg sband a.setup req.bss false started = out at *
    obtain ⟨prepared,none | err⟩ := out
    · obtain ⟨got,link,entry,bssid⟩ := new rfl
      dsimp only at *
      have begun : Begun cfg sband req.bss prepared :=
        ⟨⟨started.link,a.setup.use,got,link⟩,entry,bssid,associated.trans alone,assoc.trans free⟩
      have apart := probeAuth_apart (s := prepared) req.bss.proberesp req.bss.ssid
      generalize probeAuth req.bss.proberesp req.bss.ssid prepared = out at *
      obtain ⟨_,_ | _⟩ := out
      · exact begun.apart (apart rfl)
      · cases ok
    · cases ok

def assocLink (sband : Sband) (hw : Hw) (req : AssocRequest) (l : Link) : Link := {l with
  flags := assocFlags sband hw req l.flags
  htCapa := req.htCapa}

theorem mgdAssoc_begun {a : AuthAnswers} (begun : Begun cfg sband req.bss s) (going : s.authData.isSome = true)
    (ok : (mgdAssoc cfg sband hw req a s).2 = none) :
    (isOverride sband (assocLink sband hw req s.link) = false ∧ (mgdAssoc cfg sband hw req a s).1.link = assocLink sband hw req s.link) ∨
    isOverride sband (assocLink sband hw req s.link) = true ∧
      (prepChannel cfg sband req.bss a.setup.use (assocLink sband hw req s.link)).2 = none ∧
      (mgdAssoc cfg sband hw req a s).1.link = (prepChannel cfg sband req.bss a.setup.use (assocLink sband hw req s.link)).1 := by
  obtain ⟨_,data⟩ := Option.isSome_iff_exists.mp going
  have same : setDisassoc {s with mem := s.mem.alloc .assoc} = {s with mem := s.mem.alloc .assoc} := setDisassoc_free begun.associated
  unfold mgdAssoc at *
  dsimp only at *
  rw [same] at ok ⊢
  split_ifs at ok ⊢
  have started : (startAssoc sband hw s.mem.next req {s with mem := s.mem.alloc .assoc}).link = assocLink sband hw req s.link ∧
      (startAssoc sband hw s.mem.next req {s with mem := s.mem.alloc .assoc}).stas = s.stas := by
    unfold startAssoc destroyAuthData assocLink
    rw [data,begun.bssid]
    simp
  obtain ⟨link,stas⟩ := started
  generalize startAssoc sband hw s.mem.next req {s with mem := s.mem.alloc .assoc} = started at *
  have entry : hasSta req.bss.bssid started = true := by
    unfold hasSta
    rw [stas]
    exact begun.entry
  have prepared := @prepConnection_known cfg sband a.setup _ _ entry
  rw [← link]
  generalize prepConnection cfg sband a.setup req.bss true started = out at *
  obtain ⟨s',_ | _⟩ := out
  · exact prepared rfl
  · cases ok

end requests

section kept
variable {cfg : Cfg80211} {sband : Sband} {hw : Hw}

theorem sendAssoc_ht (l : Link) : (sendAssoc l).flags.disableHt = l.flags.disableHt := rfl

theorem sendAssoc_same (ht : l.flags.disableHt = false) : sendAssoc l = l := by
  unfold sendAssoc
  rw [ht,Bool.or_false]

theorem assocFlags_grown (req : AssocRequest) (f : StaFlags) (ht : (assocFlags sband hw req f).disableHt = false) :
    f.disableHt = false ∧ Grown f (assocFlags sband hw req f) := by
  refine ⟨?_,ht,?_,rfl,rfl,rfl⟩
  · unfold assocFlags at ht
    simp only [Bool.or_eq_false_iff] at ht
    exact ht.1.1.1.1.1
  · intro vht
    simp [assocFlags,vht]

theorem tuned_own (tuned : Tuned cfg sband bss cap oper l) (supported : sband.htSupported = true)
    (own : applyHtcapOverrides sband l.htCapa = false) : l.chandef.width = .w20 := by
  cases tuned.attuned with
  | plain place | narrow place =>
    rw [place]
    rfl
  | same place vht | halved place width vht =>
    cases @advertised_cases cfg _ bss.channel l.htCapa supported cap oper with
    | narrowAp all | narrow all => cases (all bss.vhtOper).symm.trans vht
    | full _ _ own' => cases own.symm.trans own'
  | noVht place ht =>
    cases @advertised_cases cfg _ bss.channel l.htCapa supported cap oper with
    | narrowAp all => cases congrArg (fun out => out.2.disableVht) ((all none).symm.trans ht)
    | narrow all => cases congrArg (fun out => out.2.disable40MHz) ((all none).symm.trans ht)
    | full _ _ own' => cases own.symm.trans own'

theorem kept_channel (doc : Documented cfg sband) (begun : Begun cfg sband bss s) (req : AssocRequest)
    (plain : isOverride sband (assocLink sband hw req s.link) = false) (beacon : Chanctx × Sta) (rest : List (Chanctx × Sta)) :
    neverDrops cfg sband bss (beacon :: rest) (sendAssoc (assocLink sband hw req s.link)) = true ↔
      keepsAp cfg sband hw bss req beacon.1 s.link = true := by
  have own : applyHtcapOverrides sband req.htCapa = sband.supWidth2040 := by
    have differs : (applyHtcapOverrides sband req.htCapa != sband.supWidth2040) = false := plain
    simpa using differs
  unfold keepsAp
  dsimp only
  rw [own,bne_self_eq_false,Bool.or_false]
  cases ht : (assocFlags sband hw req s.link.flags).disableHt with
  | true =>
    exact iff_of_true (neverDrops_plain (.inl ((sendAssoc_ht _).trans ht)) _) rfl
  | false =>
    cases known : bss.htOper with
    | none => exact iff_of_true (neverDrops_plain (.inr known) _) rfl
    | some =>
      rw [Option.all_some,sendAssoc_same ht]
      obtain ⟨l0,_,got,link⟩ := begun.channel
      obtain ⟨kept,grown⟩ := assocFlags_grown req s.link.flags ht
      rw [link] at kept
      obtain ⟨_,known',tuned⟩ := prepChannel_tuned doc known got kept
      obtain ⟨-,_,chanctx⟩ := prepChannel_reach got
      rw [← link] at tuned chanctx
      have override : applyHtcapOverrides sband req.htCapa = applyHtcapOverrides sband l0.htCapa ∨ applyHtcapOverrides sband req.htCapa = true := by
        rw [own]
        cases wide : sband.supWidth2040 with
        | true => exact .inr rfl
        | false =>
          refine .inl ?_
          unfold applyHtcapOverrides
          split_ifs <;> simp [wide]
      exact neverDrops_tuned doc known' known (tuned (assocLink sband hw req s.link) rfl chanctx grown override) beacon rest

theorem new_channel (doc : Documented cfg sband) (got : (prepChannel cfg sband bss use l).2 = none)
    (override : isOverride sband l = true) (beacons : List (Chanctx × Sta)) :
    neverDrops cfg sband bss beacons (sendAssoc (prepChannel cfg sband bss use l).1) = true := by
  obtain ⟨-,capa,chanctx⟩ := prepChannel_reach got
  cases ht : (prepChannel cfg sband bss use l).1.flags.disableHt with
  | true => exact neverDrops_plain (.inl ((sendAssoc_ht _).trans ht)) _
  | false =>
    cases known : bss.htOper with
    | none => exact neverDrops_plain (.inr known) _
    | some =>
      rw [sendAssoc_same ht]
      obtain ⟨_,known',tuned⟩ := prepChannel_tuned doc known got ht
      have narrow := tuned (prepChannel cfg sband bss use l).1 rfl chanctx ⟨ht,id,rfl,rfl,rfl⟩ (.inl (by rw [capa]))
      have both : sband.htSupported = true ∧ applyHtcapOverrides sband l.htCapa = false := by
        unfold isOverride applyHtcapOverrides at override
        unfold applyHtcapOverrides
        split_ifs at override ⊢ with no off <;> simp_all
      rw [← capa] at both
      exact neverDrops_settled doc known' known beacons narrow (by simp [settled,tuned_own narrow both.1 both.2])

theorem unchanged_ap_kept (doc : Documented cfg sband) {req : AuthRequest} {a a' : AuthAnswers} {req' : AssocRequest}
    (auth : (mgdAuth cfg sband hw req a s).2 = none)
    (path : Run (step cfg sband hw) (fun s e => between cfg sband hw s e = true) (mgdAuth cfg sband hw req a s).1 s')
    (going : s'.authData.isSome = true) (same : req'.bss = req.bss) (assoc : (mgdAssoc cfg sband hw req' a' s').2 = none)
    (beacon : Chanctx × Sta) (rest : List (Chanctx × Sta)) :
    neverDrops cfg sband req.bss (beacon :: rest) (sendAssoc (mgdAssoc cfg sband hw req' a' s').1.link) = true ↔
      keepsAp cfg sband hw req.bss req' beacon.1 s'.link = true := by
  have first := mgdAuth_begun auth
  have begun := first.apart (run_apart path first.assocData first.associated going)
  rw [← same] at begun ⊢
  obtain ⟨plain,link⟩ | ⟨override,got,link⟩ := mgdAssoc_begun begun going assoc
  · rw [link]
    exact kept_channel doc begun req' plain beacon rest
  · rw [link]
    refine iff_of_true (new_channel doc got override _) ?_
    have differs : (applyHtcapOverrides sband req'.htCapa != sband.supWidth2040) = true := override
    unfold keepsAp
    dsimp only
    rw [differs,Bool.or_true,Bool.true_or]

end kept

def wideAp : Bss := ⟨7,channel36,true,true,true,some ⟨true⟩,some ⟨36,1,0⟩,true,some ⟨2,50,0⟩⟩

def upTo80 : Cfg80211 := {wide with usable c _ := c.width ≠ .w160 ∧ c.width ≠ .w80p80}

theorem upTo80_documented (sband : Sband) : Documented upTo80 sband :=
  ⟨fun _ fine => fine,fun _ _ _ _ _ _ => rfl⟩

def onChannel36 : Chanctx := ⟨twenty channel36,.unreplaced,[]⟩
def accepted : AuthFrame := ⟨30,7,some .openSystem,2,0,false⟩

def authenticated (cfg : Cfg80211) : Sdata :=
  step cfg band5GHz radio (mgdAuth cfg band5GHz radio (authRequest wideAp) willing (fresh unused)).1 (.rxAuth accepted)

theorem authenticated_run (cfg : Cfg80211) : Run (step cfg band5GHz radio) (fun s e => between cfg band5GHz radio s e = true)
    (mgdAuth cfg band5GHz radio (authRequest wideAp) willing (fresh unused)).1 (authenticated cfg) := by
  have kept : between cfg band5GHz radio (mgdAuth cfg band5GHz radio (authRequest wideAp) willing (fresh unused)).1 (.rxAuth accepted) = true := rfl
  exact Run.start.next kept

theorem unchanged_ap_kept_sample : neverDrops upTo80 band5GHz wideAp [(onChannel36,⟨7,.bw80,.bw80⟩),(onChannel36,⟨7,.bw20,.bw80⟩)]
    (sendAssoc (mgdAssoc upTo80 band5GHz radio (assocRequest wideAp) willing (authenticated upTo80)).1.link) = true :=
  (@unchanged_ap_kept upTo80 band5GHz radio (fresh unused) (authenticated upTo80) (upTo80_documented band5GHz) (authRequest wideAp) willing willing
    (assocRequest wideAp) (by decide +kernel) (authenticated_run upTo80) (by decide +kernel) rfl (by decide +kernel)
    (onChannel36,⟨7,.bw80,.bw80⟩) [(onChannel36,⟨7,.bw20,.bw80⟩)]).mpr (by decide +kernel)

def withoutVht : AssocRequest := {assocRequest wideAp with disableVht := true}

-- The association without VHT keeps the flags of a channel halved for the authentication.
theorem given_up_vht_drops :
    ¬(∀ (cfg : Cfg80211) (s' : Sdata) (req : AssocRequest) (beacon : Chanctx × Sta), Documented cfg band5GHz →
      (mgdAuth cfg band5GHz radio (authRequest wideAp) willing (fresh unused)).2 = none →
      Run (step cfg band5GHz radio) (fun s e => between cfg band5GHz radio s e = true)
        (mgdAuth cfg band5GHz radio (authRequest wideAp) willing (fresh unused)).1 s' →
      s'.authData.isSome = true → req.bss = wideAp → (mgdAssoc cfg band5GHz radio req willing s').2 = none →
      neverDrops cfg band5GHz wideAp [beacon] (sendAssoc (mgdAssoc cfg band5GHz radio req willing s').1.link) = true) ∧
    (configBw upTo80 band5GHz onChannel36 (some ⟨7,.bw80,.bw80⟩) wideAp.htCap wideAp.htOper wideAp.vhtOper
      (sendAssoc (mgdAssoc upTo80 band5GHz radio withoutVht willing (authenticated upTo80)).1.link)).2.2 = some .inval := by
  refine ⟨?_,by decide +kernel⟩
  intro always
  have drops : neverDrops upTo80 band5GHz wideAp [(onChannel36,⟨7,.bw80,.bw80⟩)]
      (sendAssoc (mgdAssoc upTo80 band5GHz radio withoutVht willing (authenticated upTo80)).1.link) = false := by decide +kernel
  have keeps := always upTo80 (authenticated upTo80) withoutVht (onChannel36,⟨7,.bw80,.bw80⟩) (upTo80_documented band5GHz) (by decide +kernel)
    (authenticated_run upTo80) (by decide +kernel) rfl (by decide +kernel)
  exact Bool.false_ne_true (drops.symm.trans keeps)

end Mac80211.Mlme

import Mac80211.MlmeBandwidth

namespace Mac80211.Mlme
open Chan (Chandef Width)

section advertised
variable {cfg : Cfg80211} {sband : Sband} {channel : Channel} {o : Overrides}

theorem twenty_on (channel : Channel) : OnChannel channel (twenty channel) := ⟨⟨rfl,rfl,rfl⟩,fun _ => rfl⟩

theorem twenty_more (channel : Channel) : 0 < rank (twenty channel).width := Nat.one_pos

theorem htChandef_cases (channel : Channel) (oper : HtOperation) :
    OnChannel channel (htChandef channel oper) ∧ (htChandef channel oper = twenty channel ∨ (htChandef channel oper).width = .w40) := by
  unfold htChandef
  split_ifs
  · exact ⟨⟨⟨rfl,rfl,rfl⟩,fun _ => rfl⟩,.inr rfl⟩
  · exact ⟨⟨⟨rfl,rfl,rfl⟩,fun _ => rfl⟩,.inr rfl⟩
  · exact ⟨twenty_on channel,.inl rfl⟩

theorem vhtChandef_cases {ht wide : Chandef} (oper : VhtOperation) (on : OnChannel channel ht) (known : vhtChandef cfg channel ht oper = some wide)
    (single : ht.width ≠ .w80p80) : wide = ht ∨ OnChannel channel wide ∧ isWide wide.width := by
  obtain ⟨⟨_,_,_⟩,_⟩ := on
  unfold vhtChandef at known
  split_ifs at known
  all_goals cases known
  · cases ht
    simp_all [noHtChandef]
  · exact .inr ⟨⟨⟨rfl,rfl,rfl⟩,fun _ => rfl⟩,.inl rfl⟩
  · exact .inr ⟨⟨⟨rfl,rfl,rfl⟩,fun _ => rfl⟩,.inr (.inl rfl)⟩
  · exact .inr ⟨⟨⟨rfl,rfl,rfl⟩,fun no => absurd rfl no⟩,.inr (.inr rfl)⟩

-- What an HT AP advertises to a station that tracks it.
inductive Advertises (cfg : Cfg80211) (sband : Sband) (o : Overrides) (channel : Channel) (cap : HtCap) (oper : HtOperation) : Prop where
  | narrowAp (all : ∀ vht, advertised cfg sband o channel (some cap) (some oper) vht true = (twenty channel,disable40))
      (narrow : cap.supWidth2040 = false)
  | narrow (all : ∀ vht, advertised cfg sband o channel (some cap) (some oper) vht true = (twenty channel,disableVht40))
      (sup : cap.supWidth2040 = true) (own : applyHtcapOverrides sband o = false)
  | full (ht : advertised cfg sband o channel (some cap) (some oper) none true = (htChandef channel oper,disableVht))
      (sup : cap.supWidth2040 = true) (own : applyHtcapOverrides sband o = true)

theorem advertised_cases (ht : sband.htSupported = true) (cap : HtCap) (oper : HtOperation) : Advertises cfg sband o channel cap oper := by
  cases sup : cap.supWidth2040 with
  | false =>
    refine .narrowAp (fun vht => ?_) sup
    simp [advertised,ht,sup,twenty]
  | true =>
    cases own : applyHtcapOverrides sband o with
    | false =>
      refine .narrow (fun vht => ?_) sup own
      simp [advertised,ht,sup,own,twenty]
    | true =>
      refine .full ?_ sup own
      simp [advertised,ht,sup,own]

theorem advertised_vht (ht : sband.htSupported = true) {cap : HtCap} (oper : HtOperation) (sup : cap.supWidth2040 = true)
    (own : applyHtcapOverrides sband o = true) (vht : Option VhtOperation) :
    advertised cfg sband o channel (some cap) (some oper) vht true = (htChandef channel oper,disableVht) ∨
    ∃ c, advertised cfg sband o channel (some cap) (some oper) vht true = (c,noFlags) ∧ OnChannel channel c ∧
      (c = htChandef channel oper ∨ isWide c.width) := by
  obtain ⟨on,narrow⟩ := htChandef_cases channel oper
  have single : (htChandef channel oper).width ≠ .w80p80 := by
    obtain twenty | forty := narrow
    · rw [twenty]
      nofun
    · rw [forty]
      nofun
  unfold advertised
  simp only [ht,sup,own,Bool.not_true,Bool.false_eq_true,if_false,Bool.false_and]
  cases vht with
  | none => exact .inl rfl
  | some vht =>
    dsimp only
    split_ifs
    · exact .inl rfl
    cases known : vhtChandef cfg channel (htChandef channel oper) vht with
    | none => exact .inl rfl
    | some =>
      dsimp only
      have width := vhtChandef_cases vht on known single
      split_ifs with invalid same apart
      · exact .inl rfl
      · exact .inr ⟨_,rfl,on,.inl rfl⟩
      · exact .inl rfl
      · obtain equal | ⟨place,wider⟩ := width
        · exact absurd equal.symm same
        · exact .inr ⟨_,rfl,place,.inr wider⟩

section
variable {htCap : Option HtCap} {htOper : Option HtOperation} {vht : Option VhtOperation}

theorem advertised_tracking
    (kept : (advertised cfg sband o channel htCap htOper vht false).2.disableHt = false) :
    advertised cfg sband o channel htCap htOper vht false = advertised cfg sband o channel htCap htOper vht true := by
  unfold advertised at *
  cases htCap with
  | none => rfl
  | some cap =>
    cases htOper with
    | none => rfl
    | some oper =>
      dsimp only at *
      by_cases ht : (!sband.htSupported) = true
      · rw [if_pos ht,if_pos ht]
      rw [if_neg ht] at kept ⊢
      rw [if_neg ht]
      by_cases sup : (!cap.supWidth2040) = true
      · rw [if_pos sup,if_pos sup]
      rw [if_neg sup] at kept ⊢
      rw [if_neg sup]
      rw [Bool.not_true,Bool.false_and]
      rw [Bool.not_false,Bool.true_and] at kept ⊢
      by_cases other : (channel.centerFreq != cfg.channelToFrequency oper.primaryChan.toNat channel.band) = true
      · rw [if_pos other] at kept
        cases kept
      · rw [if_neg other,if_neg Bool.false_ne_true]

theorem advertised_ht {tracking : Bool}
    (kept : (advertised cfg sband o channel htCap htOper vht tracking).2.disableHt = false) :
    htCap.isSome = true ∧ htOper.isSome = true ∧ sband.htSupported = true := by
  unfold advertised at kept
  cases htCap with
  | none => cases kept
  | some =>
    cases htOper with
    | none => cases kept
    | some =>
      refine ⟨rfl,rfl,?_⟩
      by_contra no
      dsimp only at kept
      rw [if_pos (by simpa using no)] at kept
      cases kept

end

end advertised

-- Prohibiting disabled channels makes nothing usable, and what is usable with HT widths has a control channel
-- usable with 20 MHz of HT.
structure Documented (cfg : Cfg80211) (sband : Sband) : Prop where
  fewer : ∀ c, cfg.usable c true = true → cfg.usable c false = true
  control : ∀ c channel, sband.htSupported = true → OnChannel channel c → 0 < rank c.width → cfg.usable c true = true →
    cfg.usable (twenty channel) true = true

section setup
variable {cfg : Cfg80211} {sband : Sband} {bss : Bss} {use : Chandef → Use} {l : Link}

structure Elements (sband : Sband) (bss : Bss) (out : StaFlags × Option HtCap × Option HtOperation × Option VhtOperation) : Prop where
  cleared : out.1.disable40MHz = false ∧ out.1.disable80p80MHz = false ∧ out.1.disable160MHz = false
  ht : out.1.disableHt = false → sband.htSupported = true → bss.htCap.isSome = true ∧ out.2.1 = bss.htCap ∧ out.2.2.1 = bss.htOper
  vht : out.1.disableVht = false → sband.vhtSupported = true → out.2.2.2 = bss.vhtOper
  noVht : out.1.disableVht = true ∨ sband.vhtSupported = false → out.2.2.2 = none

theorem prepElements_spec (flags : StaFlags) : Elements sband bss (prepElements sband bss flags) := by
  unfold prepElements
  refine ⟨⟨rfl,rfl,rfl⟩,?_,?_,?_⟩
  · intro _ _
    cases off : flags.disableHt <;> cases cap : bss.htCap <;> simp_all
  · intro _ _
    cases off : flags.disableVht <;> cases cap : bss.vhtCap <;> cases oper : bss.vhtOper <;> grind
  · intro _
    cases off : flags.disableVht <;> cases cap : bss.vhtCap <;> cases sup : sband.vhtSupported <;> simp_all

def firstChandef (cfg : Cfg80211) (sband : Sband) (bss : Bss) (l : Link) : Chandef × StaFlags :=
  let elements := prepElements sband bss l.flags
  determineChantype cfg sband l.htCapa bss.channel elements.2.1 elements.2.2.1 elements.2.2.2 l.chandef false

theorem prepChannel_reach (got : (prepChannel cfg sband bss use l).2 = none) :
    Reach (firstChandef cfg sband bss l).1 ((prepElements sband bss l.flags).1.join (firstChandef cfg sband bss l).2)
      (prepChannel cfg sband bss use l).1.chandef (prepChannel cfg sband bss use l).1.flags ∧
    (prepChannel cfg sband bss use l).1.htCapa = l.htCapa ∧ (prepChannel cfg sband bss use l).1.chanctx = true := by
  unfold prepChannel firstChandef at *
  dsimp only at *
  generalize prepElements sband bss l.flags = elements at *
  generalize determineChantype cfg sband l.htCapa bss.channel elements.2.1 elements.2.2.1 elements.2.2.2 l.chandef false = out at *
  obtain ⟨c,ret⟩ := out
  have first := @vifUseChannel_got use c {l with flags := elements.1.join ret}
  obtain ⟨flags,capa⟩ := @vifUseChannel_link use c {l with flags := elements.1.join ret}
  generalize vifUseChannel use c {l with flags := elements.1.join ret} = tried at *
  by_cases narrow : c.width = .w5 ∨ c.width = .w10
  · rw [if_pos narrow] at got ⊢
    rw [first got]
    exact ⟨.start,rfl,rfl⟩
  rw [if_neg narrow] at got ⊢
  obtain ⟨l',none | err⟩ := tried
  · have done : useNarrower use widths c (l',none) = (l',none) := useNarrower_done widths l'
    rw [done,first rfl]
    exact ⟨.start,rfl,rfl⟩
  · obtain ⟨path,same,holds⟩ := useNarrower_reach widths c l' err got
    rw [flags] at path
    exact ⟨path,same.trans capa,holds⟩

end setup

end Mac80211.Mlme

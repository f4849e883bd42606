import Mac80211.MlmeTracking

namespace Mac80211.Mlme
open Chan (Chandef Width)

section tuned
variable (cfg : Cfg80211) (sband : Sband) (bss : Bss) (cap : HtCap) (oper : HtOperation)

inductive Attuned (l : Link) : Prop where
  | plain {ret : StaFlags} (place : l.chandef = twenty bss.channel)
      (all : ∀ vht, advertised cfg sband l.htCapa bss.channel (some cap) (some oper) vht true = (twenty bss.channel,ret))
  | narrow (place : l.chandef = twenty bss.channel)
      (ht : advertised cfg sband l.htCapa bss.channel (some cap) (some oper) none true = (htChandef bss.channel oper,disableVht))
      (flags : l.flags.disableVht = true ∧ l.flags.disable40MHz = true) (usable : cfg.usable (twenty bss.channel) false = true)
  | same {c : Chandef} (place : l.chandef = c)
      (vht : advertised cfg sband l.htCapa bss.channel (some cap) (some oper) bss.vhtOper true = (c,noFlags))
      (flags : l.flags.disableVht = false ∧ l.flags.disable40MHz = false)
      (whole : l.flags.disable80p80MHz = false ∧ l.flags.disable160MHz = false)
  | halved {c : Chandef} (place : l.chandef = (chandefDowngrade c).1) (width : c.width = .w160 ∨ c.width = .w80p80)
      (vht : advertised cfg sband l.htCapa bss.channel (some cap) (some oper) bss.vhtOper true = (c,noFlags))
      (flags : l.flags.disableVht = false ∧ l.flags.disable40MHz = false)
      (half : l.flags.disable80p80MHz = true ∧ l.flags.disable160MHz = true)
      (usable : cfg.usable c false = true ∨ cfg.usable (chandefDowngrade c).1 false = true)
  | noVht (place : l.chandef = htChandef bss.channel oper ∨ 2 ≤ rank l.chandef.width)
      (ht : advertised cfg sband l.htCapa bss.channel (some cap) (some oper) none true = (htChandef bss.channel oper,disableVht))
      (flags : l.flags.disableVht = true ∧ l.flags.disable40MHz = false)

structure Tuned (l : Link) : Prop where
  on : OnChannel bss.channel l.chandef
  chanctx : l.chanctx = true
  ht : l.flags.disableHt = false
  attuned : Attuned cfg sband bss cap oper l

structure Grown (f f' : StaFlags) : Prop where
  ht : f'.disableHt = false
  vht : f.disableVht = true → f'.disableVht = true
  kept : f'.disable40MHz = f.disable40MHz ∧ f'.disable80p80MHz = f.disable80p80MHz ∧ f'.disable160MHz = f.disable160MHz

end tuned

section setup
variable {cfg : Cfg80211} {sband : Sband} {bss : Bss} {cap : HtCap} {oper : HtOperation} {use : Chandef → Use} {l l' : Link}
variable {p c : Chandef} {f g f' : StaFlags} {o o' : Overrides}

theorem rank_wide (wide : isWide c.width) : 2 < rank c.width := by
  obtain width | width | width := wide <;> rw [width] <;> decide

theorem stage_twenty (stage : Stage bss.channel (twenty bss.channel) f c g) (ht : g.disableHt = false) :
    c = twenty bss.channel ∧ (g = f ∨ g.disableVht = true ∧ g.disable40MHz = true) := by
  cases stage with
  | first => exact ⟨rfl,.inl rfl⟩
  | eighty source => obtain width | width := source <;> cases width
  | forty source => obtain width | width | width := source <;> cases width
  | twenty vht forty => exact ⟨rfl,.inr ⟨vht,forty⟩⟩
  | gone lost => exact absurd (ht.symm.trans lost) Bool.false_ne_true

theorem stage_ht (stage : Stage bss.channel (htChandef bss.channel oper) f c g) (ht : g.disableHt = false) :
    c = htChandef bss.channel oper ∧ g = f ∨ c = twenty bss.channel ∧ g.disableVht = true ∧ g.disable40MHz = true := by
  have narrow := (htChandef_cases bss.channel oper).2
  cases stage with
  | first => exact .inl ⟨rfl,rfl⟩
  | eighty source =>
    obtain place | width := narrow
    · rw [place] at source
      obtain width | width := source <;> cases width
    · rw [width] at source
      obtain width | width := source <;> cases width
  | forty source =>
    obtain place | width := narrow
    · rw [place] at source
      obtain width | width | width := source <;> cases width
    · rw [width] at source
      obtain width | width | width := source <;> cases width
  | twenty vht forty => exact .inr ⟨rfl,vht,forty⟩
  | gone lost => exact absurd (ht.symm.trans lost) Bool.false_ne_true

theorem stage_width (stage : Stage bss.channel p f c g) (more : 0 < rank p.width) (ht : g.disableHt = false) : 0 < rank c.width := by
  cases stage with
  | first => exact more
  | eighty source =>
    unfold chandefDowngrade
    obtain width | width := source <;> rw [width] <;> exact Nat.succ_pos _
  | forty _ width =>
    rw [width]
    decide
  | twenty => exact Nat.one_pos
  | gone lost => exact absurd (ht.symm.trans lost) Bool.false_ne_true

theorem advertised_own (same : applyHtcapOverrides sband o' = applyHtcapOverrides sband o) (htCap : Option HtCap) (htOper : Option HtOperation)
    (vht : Option VhtOperation) (tracking : Bool) :
    advertised cfg sband o' bss.channel htCap htOper vht tracking = advertised cfg sband o bss.channel htCap htOper vht tracking := by
  unfold advertised
  rw [same]

section stages
variable (ht : advertised cfg sband l'.htCapa bss.channel (some cap) (some oper) none true = (htChandef bss.channel oper,disableVht))
variable (kept : g.disableHt = false) (grown : Grown g l'.flags) (usable : cfg.usable (twenty bss.channel) false = true)
include ht kept grown usable

theorem attuned_ht (stage : Stage bss.channel (htChandef bss.channel oper) f l'.chandef g)
    (first : l'.chandef = htChandef bss.channel oper → g = f → Attuned cfg sband bss cap oper l') : Attuned cfg sband bss cap oper l' := by
  obtain ⟨place,same⟩ | ⟨place,vht,forty⟩ := stage_ht stage kept
  · exact first place same
  · exact .narrow place ht ⟨grown.vht vht,grown.kept.1.trans forty⟩ usable

theorem attuned_wide (vht : advertised cfg sband l'.htCapa bss.channel (some cap) (some oper) bss.vhtOper true = (c,noFlags))
    (wider : isWide c.width) (cleared : f.disable40MHz = false ∧ f.disable80p80MHz = false ∧ f.disable160MHz = false)
    (stage : Stage bss.channel c f l'.chandef g)
    (half : g.disableVht = false → cfg.usable c false = true ∨ cfg.usable (chandefDowngrade c).1 false = true) :
    Attuned cfg sband bss cap oper l' := by
  generalize placed : l'.chandef = place at stage
  cases stage with
  | first =>
    cases more : l'.flags.disableVht with
    | false => exact .same placed vht ⟨more,grown.kept.1.trans cleared.1⟩ ⟨grown.kept.2.1.trans cleared.2.1,grown.kept.2.2.trans cleared.2.2⟩
    | true =>
      refine .noVht (.inr ?_) ht ⟨more,grown.kept.1.trans cleared.1⟩
      rw [placed]
      exact Nat.le_of_lt (rank_wide wider)
  | eighty source =>
    have forty : l'.flags.disable40MHz = false := grown.kept.1.trans (by simp [StaFlags.join,cleared.1,disable160])
    cases more : l'.flags.disableVht with
    | false =>
      refine .halved placed source vht ⟨more,forty⟩ ⟨grown.kept.2.1.trans (Bool.or_true _),grown.kept.2.2.trans (Bool.or_true _)⟩ (half ?_)
      by_contra lost
      exact Bool.false_ne_true (more.symm.trans (grown.vht (by simpa using lost)))
    | true =>
      refine .noVht (.inr ?_) ht ⟨more,forty⟩
      rw [placed]
      unfold chandefDowngrade
      obtain width | width := source <;> rw [width] <;> exact Nat.le_succ _
  | forty _ width vht same =>
    refine .noVht (.inr ?_) ht ⟨grown.vht vht,grown.kept.1.trans (same.trans cleared.1)⟩
    rw [placed,width]
    decide
  | twenty vht forty => exact .narrow placed ht ⟨grown.vht vht,grown.kept.1.trans forty⟩ usable
  | gone lost => exact absurd (kept.symm.trans lost) Bool.false_ne_true

end stages

theorem attuned_of_reach {c0 : Chandef} {vhtOper : Option VhtOperation} (doc : Documented cfg sband) (supported : sband.htSupported = true)
    (cleared : f.disable40MHz = false ∧ f.disable80p80MHz = false ∧ f.disable160MHz = false)
    (vht : f.disableVht = false → sband.vhtSupported = true → vhtOper = bss.vhtOper)
    (noVht : f.disableVht = true ∨ sband.vhtSupported = false → vhtOper = none)
    (begun : Reach (advertised cfg sband o bss.channel (some cap) (some oper) vhtOper true).1
      (f.join (advertised cfg sband o bss.channel (some cap) (some oper) vhtOper true).2) c0 f') (usable : cfg.usable c0 true = true)
    (path : Reach c0 f' c g) (kept : g.disableHt = false) (place : l'.chandef = c) (grown : Grown g l'.flags)
    (own : applyHtcapOverrides sband l'.htCapa = applyHtcapOverrides sband o ∨ applyHtcapOverrides sband l'.htCapa = true) :
    OnChannel bss.channel l'.chandef ∧ Attuned cfg sband bss cap oper l' := by
  subst place
  have whole := begun.trans path
  have kept' : f'.disableHt = false := by
    cases lost : f'.disableHt with
    | false => rfl
    | true => exact absurd (kept.symm.trans (path.flags.1 lost)) Bool.false_ne_true
  -- The control channel is usable, since the channel of the first attempt is.
  have control (on : OnChannel bss.channel (advertised cfg sband o bss.channel (some cap) (some oper) vhtOper true).1)
      (more : 0 < rank (advertised cfg sband o bss.channel (some cap) (some oper) vhtOper true).1.width) :
      cfg.usable (twenty bss.channel) false = true :=
    doc.fewer _ (doc.control c0 bss.channel supported (begun.on on) (stage_width (begun.stage on) more kept') usable)
  obtain ⟨onHt,narrowHt⟩ := htChandef_cases bss.channel oper
  have moreHt : 0 < rank (htChandef bss.channel oper).width := by
    obtain twenty | width := narrowHt
    · rw [twenty]
      exact twenty_more bss.channel
    · rw [width]
      decide
  cases @advertised_cases cfg _ bss.channel o supported cap oper with
  | narrowAp all sup =>
    rw [all vhtOper] at whole
    refine ⟨whole.on (twenty_on _),?_⟩
    obtain ⟨place,-⟩ := stage_twenty (whole.stage (twenty_on _)) kept
    cases @advertised_cases cfg _ bss.channel l'.htCapa supported cap oper with
    | narrowAp all | narrow all => exact .plain place all
    | full _ sup' => cases sup.symm.trans sup'
  | narrow all =>
    rw [all vhtOper] at whole control
    refine ⟨whole.on (twenty_on _),?_⟩
    obtain ⟨place,flags⟩ := stage_twenty (whole.stage (twenty_on _)) kept
    have both : g.disableVht = true ∧ g.disable40MHz = true := by
      obtain rfl | both := flags
      · exact ⟨Bool.or_true _,Bool.or_true _⟩
      · exact both
    cases @advertised_cases cfg _ bss.channel l'.htCapa supported cap oper with
    | narrowAp all | narrow all => exact .plain place all
    | full ht => exact .narrow place ht ⟨grown.vht both.1,grown.kept.1.trans both.2⟩ (control (twenty_on _) (twenty_more _))
  | full ht sup own' =>
    have same : applyHtcapOverrides sband l'.htCapa = applyHtcapOverrides sband o := by
      obtain same | own := own
      · exact same
      · exact own.trans own'.symm
    have ht' : advertised cfg sband l'.htCapa bss.channel (some cap) (some oper) none true = (htChandef bss.channel oper,disableVht) :=
      (advertised_own same _ _ _ _).trans ht
    obtain equal | ⟨wide,equal,onWide,width⟩ := @advertised_vht cfg _ bss.channel _ supported _ oper sup own' vhtOper
    · rw [equal] at whole control
      refine ⟨whole.on onHt,attuned_ht ht' kept grown (control onHt moreHt) (whole.stage onHt) fun place same => ?_⟩
      exact .noVht (.inl place) ht' (by
        subst same
        exact ⟨grown.vht (Bool.or_true _),grown.kept.1.trans (by simp [StaFlags.join,cleared.1,disableVht])⟩)
    -- A definition without a flag comes from the VHT operation element of the AP.
    have none : vhtOper ≠ none := by
      rintro rfl
      have equal := congrArg (fun out => out.2.disableVht) (ht.symm.trans equal)
      cases equal
    have free : f.disableVht = false := by
      cases lost : f.disableVht with
      | false => rfl
      | true => exact absurd (noVht (.inl lost)) none
    have vhtSupported : sband.vhtSupported = true := by
      cases sup : sband.vhtSupported with
      | true => rfl
      | false => exact absurd (noVht (.inr sup)) none
    have equal' : advertised cfg sband l'.htCapa bss.channel (some cap) (some oper) bss.vhtOper true = (wide,noFlags) := by
      rw [← vht free vhtSupported]
      exact (advertised_own same _ _ _ _).trans equal
    rw [equal,join_none] at begun whole
    rw [equal] at control
    refine ⟨whole.on onWide,?_⟩
    obtain rfl | wider := width
    · refine attuned_ht ht' kept grown (control onHt moreHt) (whole.stage onHt) fun place same => ?_
      subst same
      cases more : l'.flags.disableVht with
      | false => exact .same place equal' ⟨more,grown.kept.1.trans cleared.1⟩ ⟨grown.kept.2.1.trans cleared.2.1,grown.kept.2.2.trans cleared.2.2⟩
      | true => exact .noVht (.inl place) ht' ⟨more,grown.kept.1.trans cleared.1⟩
    · refine attuned_wide ht' kept grown (control onWide (Nat.zero_lt_of_lt (rank_wide wider))) equal' wider cleared (whole.stage onWide)
        fun quiet => ?_
      have lost (was : f'.disableVht = true) : False := Bool.false_ne_true (quiet.symm.trans (path.flags.2.1 was))
      cases begun.stage onWide with
      | first => exact .inl (doc.fewer _ usable)
      | eighty => exact .inr (doc.fewer _ usable)
      | forty _ _ vht | twenty vht => exact (lost vht).elim
      | gone ht => exact absurd (kept'.symm.trans ht) Bool.false_ne_true

theorem prepChannel_tuned (doc : Documented cfg sband) (known : bss.htOper = some oper) (got : (prepChannel cfg sband bss use l).2 = none)
    (kept : (prepChannel cfg sband bss use l).1.flags.disableHt = false) :
    ∃ cap, bss.htCap = some cap ∧ ∀ l', l'.chandef = (prepChannel cfg sband bss use l).1.chandef → l'.chanctx = true →
      Grown (prepChannel cfg sband bss use l).1.flags l'.flags →
      (applyHtcapOverrides sband l'.htCapa = applyHtcapOverrides sband l.htCapa ∨ applyHtcapOverrides sband l'.htCapa = true) →
      Tuned cfg sband bss cap oper l' := by
  obtain ⟨path,-,-⟩ := prepChannel_reach got
  obtain ⟨⟨forty,eighty,half⟩,ht,vht,noVht⟩ := @prepElements_spec sband bss l.flags
  generalize (prepChannel cfg sband bss use l).1 = link at *
  unfold firstChandef determineChantype at path
  dsimp only at path
  rw [Bool.false_and,if_neg Bool.false_ne_true] at path
  generalize prepElements sband bss l.flags = elements at *
  obtain ⟨flags,htCap,htOper,vhtOper⟩ := elements
  have settled := @makeUsable_reach (fun c => cfg.usable c true) widths
    (advertised cfg sband l.htCapa bss.channel htCap htOper vhtOper false).1
    (advertised cfg sband l.htCapa bss.channel htCap htOper vhtOper false).2 (rank_below _)
  have adv := @advertised_tracking cfg sband bss.channel l.htCapa htCap htOper vhtOper
  have advHt := @advertised_ht cfg sband bss.channel l.htCapa htCap htOper vhtOper false
  rw [Bool.not_false] at path
  generalize advertised cfg sband l.htCapa bss.channel htCap htOper vhtOper false = start at *
  generalize makeUsable (fun c => cfg.usable c true) widths start.1 start.2 = first at *
  obtain ⟨_,ret⟩ := first
  have htFlags : flags.disableHt = false ∧ ret.disableHt = false := by
    have both : (flags.join ret).disableHt = false := by
      cases lost : (flags.join ret).disableHt with
      | false => rfl
      | true => exact absurd (kept.symm.trans (path.flags.1 lost)) Bool.false_ne_true
    simpa [StaFlags.join] using both
  obtain lost | ⟨begun,usable⟩ := settled
  · exact absurd (htFlags.2.symm.trans lost) Bool.false_ne_true
  have advKept : start.2.disableHt = false := by
    cases lost : start.2.disableHt with
    | false => rfl
    | true => exact absurd (htFlags.2.symm.trans (begun.flags.1 lost)) Bool.false_ne_true
  obtain ⟨-,-,supported⟩ := advHt advKept
  obtain ⟨some,rfl,rfl⟩ := ht htFlags.1 supported
  obtain ⟨cap,known'⟩ := Option.isSome_iff_exists.mp some
  rw [adv advKept] at begun
  refine ⟨cap,known',fun l' place chanctx grown own => ?_⟩
  rw [known,known'] at begun
  obtain ⟨on,attuned⟩ := attuned_of_reach doc supported ⟨forty,eighty,half⟩ vht noVht (begun.join flags) usable path kept place grown own
  exact ⟨on,chanctx,grown.ht,attuned⟩

end setup

end Mac80211.Mlme

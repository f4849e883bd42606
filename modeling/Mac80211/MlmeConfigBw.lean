import Mac80211.MlmeTuned

namespace Mac80211.Mlme
open Chan (Chandef Width)

def settled (bss : Bss) (oper : HtOperation) (l : Link) : Bool :=
  !l.flags.disableVht || l.chandef.width = .w20 || l.chandef = htChandef bss.channel oper

def movable (cfg : Cfg80211) (ctx : Chanctx) (chandef : Chandef) : Bool :=
  cfg.usable chandef true && (cfg.compatible ctx.chandef chandef).any fun compat =>
    ctx.replaceState = .replacesOther || ctx.replaceState = .unreplaced && (reservedChandef cfg ctx compat).isSome

def follows (cfg : Cfg80211) (bss : Bss) (oper : HtOperation) (ctx : Chanctx) (l : Link) : Bool :=
  settled bss oper l || !l.flags.disable80p80MHz && !l.flags.disable160MHz && cfg.valid (htChandef bss.channel oper) &&
    movable cfg ctx (htChandef bss.channel oper)

section tracked
variable {cfg : Cfg80211} {sband : Sband} {bss : Bss} {cap : HtCap} {oper : HtOperation} {l : Link} {c : Chandef} {f : StaFlags}

theorem tracked_start (on : OnChannel bss.channel l.chandef) (htCap : Option HtCap) (vht : Option VhtOperation) :
    determineChantype cfg sband l.htCapa ⟨l.chandef.chan,l.chandef.band,l.chandef.centerFreq⟩ htCap (some oper) vht l.chandef true =
      if (advertised cfg sband l.htCapa bss.channel htCap (some oper) vht true).1 = l.chandef then
        advertised cfg sband l.htCapa bss.channel htCap (some oper) vht true
      else makeUsable (fun c => cfg.usable c false) widths (advertised cfg sband l.htCapa bss.channel htCap (some oper) vht true).1
        (advertised cfg sband l.htCapa bss.channel htCap (some oper) vht true).2 := by
  obtain ⟨⟨chan,band,freq⟩,-⟩ := on
  have channel : (⟨l.chandef.chan,l.chandef.band,l.chandef.centerFreq⟩ : Channel) = bss.channel := by
    rw [chan,band,freq]
  unfold determineChantype
  rw [channel]
  simp

theorem htChandef_narrow (channel : Channel) (oper : HtOperation) :
    (htChandef channel oper).width ≠ .w80p80 ∧ (htChandef channel oper).width ≠ .w160 := by
  obtain place | width := (htChandef_cases channel oper).2
  · rw [place]
    exact ⟨nofun,nofun⟩
  · rw [width]
    exact ⟨nofun,nofun⟩

theorem makeUsable_first (fine : cfg.usable c false = true) (f : StaFlags) :
    makeUsable (fun c => cfg.usable c false) widths c f = (c,f) := by
  unfold widths
  rw [makeUsable,if_pos fine]

theorem makeUsable_second (bad : ¬cfg.usable c false = true) (more : c.width ≠ .noHt20) (fine : cfg.usable (chandefDowngrade c).1 false = true)
    (f : StaFlags) : makeUsable (fun c => cfg.usable c false) widths c f = ((chandefDowngrade c).1,f.join (chandefDowngrade c).2) := by
  unfold widths
  rw [makeUsable,if_neg bad,if_neg more,makeUsable,if_pos fine]

theorem tracked_settled (known : bss.htCap = some cap) (tuned : Tuned cfg sband bss cap oper l) (fine : settled bss oper l = true) :
    (trackedChandef cfg sband bss.htCap oper bss.vhtOper l).1 = l.chandef := by
  obtain ⟨on,-,ht,attuned⟩ := tuned
  unfold trackedChandef
  dsimp only
  rw [tracked_start on,known]
  cases attuned with
  | plain place all =>
    rw [all,if_pos place.symm,place]
    simp [restrict,twenty,wider20]
  | narrow place ht flags usable =>
    rw [if_pos flags.1,ht]
    by_cases same : htChandef bss.channel oper = l.chandef
    · rw [if_pos same,same,place]
      simp [restrict,twenty,wider20]
    · rw [if_neg same]
      obtain twenty' | width := (htChandef_cases bss.channel oper).2
      · exact absurd (twenty'.trans place.symm) same
      have narrower := downgrade_twenty (htChandef_cases bss.channel oper).1 width
      by_cases fine : cfg.usable (htChandef bss.channel oper) false = true
      · rw [makeUsable_first fine]
        simp [restrict,width,wider20,flags.2,narrower,place]
      · rw [makeUsable_second fine (by rw [width]; decide) (by rw [narrower]; exact usable),narrower,place]
        simp [restrict,twenty,wider20]
  | same place vht flags whole =>
    rw [flags.1,if_neg Bool.false_ne_true,vht,if_pos place.symm]
    simp [restrict,flags.2,whole.1,whole.2,place]
  | @halved c place width vht flags half usable =>
    have narrower : (chandefDowngrade c).1.width = .w80 := by
      unfold chandefDowngrade
      obtain width | width := width <;> rw [width]
    have other : c ≠ l.chandef := by
      intro same
      rw [same,place,narrower] at width
      obtain width | width := width <;> cases width
    rw [flags.1,if_neg Bool.false_ne_true,vht,if_neg other]
    have more : c.width ≠ .noHt20 := by
      obtain width | width := width <;> rw [width] <;> decide
    by_cases fine : cfg.usable c false = true
    · rw [makeUsable_first fine]
      obtain width | width := width <;> simp [restrict,width,flags.2,half.1,half.2,narrower,place]
    · rw [makeUsable_second fine more (usable.resolve_left fine)]
      simp [restrict,flags.2,narrower,place]
  | noVht place ht flags =>
    rw [if_pos flags.1,ht]
    obtain ⟨no80,no160⟩ := htChandef_narrow bss.channel oper
    have same : htChandef bss.channel oper = l.chandef := by
      unfold settled at fine
      simp only [flags.1,Bool.not_true,Bool.false_or,Bool.or_eq_true,decide_eq_true_eq] at fine
      obtain width | same := fine
      · obtain same | more := place
        · exact same.symm
        · rw [width] at more
          cases more with
          | step more => cases more
      · exact same.symm
    rw [if_pos same,← same]
    simp [restrict,flags.2,no80,no160]

theorem unsettled_parts (tuned : Tuned cfg sband bss cap oper l) (unsettled : settled bss oper l = false) :
    2 ≤ rank l.chandef.width ∧ htChandef bss.channel oper ≠ l.chandef ∧ l.flags.disableVht = true ∧ l.flags.disable40MHz = false ∧
    advertised cfg sband l.htCapa bss.channel (some cap) (some oper) none true = (htChandef bss.channel oper,disableVht) := by
  unfold settled at unsettled
  simp only [Bool.or_eq_false_iff,Bool.not_eq_false',decide_eq_false_iff_not] at unsettled
  obtain ⟨⟨vht,width⟩,other⟩ := unsettled
  cases tuned.attuned with
  | plain place | narrow place =>
    rw [place] at width
    exact absurd rfl width
  | same _ _ flags | halved _ _ _ flags => exact absurd (flags.1.symm.trans vht) Bool.false_ne_true
  | noVht place ht flags => exact ⟨place.resolve_left other,Ne.symm other,vht,flags.2,ht⟩

theorem tracked_moves (known : bss.htCap = some cap) (tuned : Tuned cfg sband bss cap oper l) (unsettled : settled bss oper l = false)
    (fine : cfg.usable (htChandef bss.channel oper) false = true) :
    trackedChandef cfg sband bss.htCap oper bss.vhtOper l = (htChandef bss.channel oper,disableVht) := by
  obtain ⟨-,other,vht,forty,ht⟩ := unsettled_parts tuned unsettled
  obtain ⟨no80,no160⟩ := htChandef_narrow bss.channel oper
  unfold trackedChandef
  dsimp only
  rw [tracked_start tuned.on,known,if_pos vht,ht,if_neg other,makeUsable_first fine]
  simp [restrict,forty,no80,no160]

theorem downgrade_narrows (c : Chandef) : rank (chandefDowngrade c).1.width ≤ rank c.width := by
  unfold chandefDowngrade
  cases width : c.width <;> simp [rank,width]

theorem makeUsable_narrows {usable : Chandef → Bool} (fuel : Nat) (c : Chandef) (f : StaFlags) :
    rank (makeUsable usable fuel c f).1.width ≤ rank c.width := by
  induction fuel generalizing c f with
  | zero => exact Nat.le_refl _
  | succ fuel ih =>
    rw [makeUsable]
    split_ifs
    · exact Nat.le_refl _
    · exact Nat.le_refl _
    · exact Nat.le_trans (ih _ _) (downgrade_narrows c)

theorem restrict_narrows (b : Bool) (out : Chandef × StaFlags) : rank (restrict b out).1.width ≤ rank out.1.width := by
  cases b with
  | false => exact Nat.le_refl _
  | true => exact downgrade_narrows out.1

def Lost (f : StaFlags) : Prop := f.disableHt = true ∨ f.disable40MHz = true

theorem lost_join (lost : Lost f) (g : StaFlags) : Lost (f.join g) := by
  obtain ht | forty := lost
  · exact .inl (by simp [StaFlags.join,ht])
  · exact .inr (by simp [StaFlags.join,forty])

theorem restrict_lost (b : Bool) {out : Chandef × StaFlags} (lost : Lost out.2) : Lost (restrict b out).2 := by
  cases b with
  | false => exact lost
  | true => exact lost_join lost _

theorem makeUsable_gives_up {usable : Chandef → Bool} (fuel : Nat) (c : Chandef) (lost : Lost f) : Lost (makeUsable usable fuel c f).2 := by
  induction fuel generalizing c f with
  | zero => exact lost
  | succ fuel ih =>
    rw [makeUsable]
    split_ifs
    · exact lost
    · exact .inl rfl
    · exact ih _ (lost_join lost _)

theorem tracked_lost (known : bss.htCap = some cap) (tuned : Tuned cfg sband bss cap oper l) (unsettled : settled bss oper l = false)
    (bad : ¬cfg.usable (htChandef bss.channel oper) false = true) :
    (trackedChandef cfg sband bss.htCap oper bss.vhtOper l).1 ≠ l.chandef ∧
    Lost (trackedChandef cfg sband bss.htCap oper bss.vhtOper l).2 := by
  obtain ⟨wide,other,vht,_,ht⟩ := unsettled_parts tuned unsettled
  obtain ⟨on,narrow⟩ := htChandef_cases bss.channel oper
  have below : rank (chandefDowngrade (htChandef bss.channel oper)).1.width ≤ 1 ∧ Lost (disableVht.join (chandefDowngrade (htChandef bss.channel oper)).2) ∧
      (htChandef bss.channel oper).width ≠ .noHt20 := by
    obtain place | width := narrow
    · rw [place]
      exact ⟨Nat.zero_le 1,.inl rfl,nofun⟩
    · rw [downgrade_twenty on width]
      refine ⟨Nat.le_refl 1,.inr ?_,by rw [width]; nofun⟩
      unfold chandefDowngrade
      rw [width]
      rfl
  obtain ⟨low,lost,more⟩ := below
  unfold trackedChandef
  dsimp only
  rw [tracked_start tuned.on,known,if_pos vht,ht,if_neg other]
  unfold widths
  rw [makeUsable,if_neg bad,if_neg more]
  -- a width that is given up first loses VHT, and what is tried next is no wider than 20 MHz
  generalize chandefDowngrade (htChandef bss.channel oper) = less at *
  have gone := @makeUsable_gives_up _ (fun c => cfg.usable c false) 7 less.1 lost
  have small := Nat.le_trans (@makeUsable_narrows (fun c => cfg.usable c false) 7 less.1 (disableVht.join less.2)) low
  generalize makeUsable (fun c => cfg.usable c false) 7 less.1 (disableVht.join less.2) = out at *
  refine ⟨?_,restrict_lost _ (restrict_lost _ (restrict_lost _ gone))⟩
  intro same
  rw [← same] at wide
  have all (a b c : Bool) : rank (restrict a (restrict b (restrict c out))).1.width ≤ 1 :=
    Nat.le_trans (restrict_narrows a _) (Nat.le_trans (restrict_narrows b _) (Nat.le_trans (restrict_narrows c out) small))
  exact absurd (Nat.le_trans wide (all _ _ _)) (by decide)

end tracked

section config
variable {cfg : Cfg80211} {sband : Sband} {bss : Bss} {cap : HtCap} {oper : HtOperation} {l : Link} {f g : StaFlags}

theorem vifChangeBandwidth_ok (ctx : Chanctx) (chandef : Chandef) (other : chandef ≠ l.chandef) (ht : chandef.width ≠ .noHt20)
    (ht' : l.chandef.width ≠ .noHt20) (chanctx : l.chanctx = true) :
    (vifChangeBandwidth cfg ctx chandef l).2 = none ↔ movable cfg ctx chandef = true := by
  unfold vifChangeBandwidth movable
  cases usable : cfg.usable chandef true with
  | false => simp
  | true =>
    rw [if_neg (by simp),if_neg other,if_neg (by simp [ht,ht']),if_neg (by simp [chanctx])]
    cases cfg.compatible ctx.chandef chandef with
    | none => simp
    | some compat =>
      cases ctx.replaceState with
      | unreplaced => cases reserved : reservedChandef cfg ctx compat <;> simp [reserved]
      | willBeReplaced => simp
      | replacesOther => simp

theorem vifChangeBandwidth_moves {ctx : Chanctx} {chandef : Chandef} (moved : (vifChangeBandwidth cfg ctx chandef l).2 = none) :
    (vifChangeBandwidth cfg ctx chandef l).1 = {l with chandef := chandef} := by
  unfold vifChangeBandwidth at *
  split_ifs at moved ⊢ with bad same
  · rw [same]
  cases compat : cfg.compatible ctx.chandef chandef with
  | none =>
    rw [compat] at moved
    cases moved
  | some =>
    rw [compat] at moved
    dsimp only at moved ⊢
    cases state : ctx.replaceState with
    | unreplaced =>
      rw [state] at moved
      split_ifs at moved ⊢
      rfl
    | willBeReplaced =>
      rw [state] at moved
      cases moved
    | replacesOther => rfl

theorem tuned_operation (tuned : Tuned cfg sband bss cap oper l) (mode : UInt16) :
    Tuned cfg sband bss cap oper {l with htOperationMode := mode} := by
  obtain ⟨on,chanctx,ht,attuned⟩ := tuned
  refine ⟨on,chanctx,ht,?_⟩
  cases attuned with
  | plain place all => exact .plain place all
  | narrow place ht flags usable => exact .narrow place ht flags usable
  | same place vht flags whole => exact .same place vht flags whole
  | halved place width vht flags half usable => exact .halved place width vht flags half usable
  | noVht place ht flags => exact .noVht place ht flags

theorem tuned_moved (tuned : Tuned cfg sband bss cap oper l) (unsettled : settled bss oper l = false) (mode : UInt16) :
    Tuned cfg sband bss cap oper {l with htOperationMode := mode,chandef := htChandef bss.channel oper} := by
  obtain ⟨-,-,vht,forty,ht⟩ := unsettled_parts tuned unsettled
  exact ⟨(htChandef_cases bss.channel oper).1,tuned.chanctx,tuned.ht,.noVht (.inl rfl) ht ⟨vht,forty⟩⟩

theorem masked_flags (ht : f.disableHt = false) (vht : f.disableVht = true) (forty : f.disable40MHz = false) :
    disableVht ≠ {f with disableWmm := false} ↔ ¬(f.disable80p80MHz = false ∧ f.disable160MHz = false) := by
  cases f
  simp_all [disableVht,eq_comm]

theorem masked_lost (lost : Lost g) (ht : f.disableHt = false) (forty : f.disable40MHz = false) : g ≠ {f with disableWmm := false} := by
  rintro rfl
  obtain lost | lost := lost
  · exact Bool.false_ne_true (ht.symm.trans lost)
  · exact Bool.false_ne_true (forty.symm.trans lost)

theorem configBw_tuned (doc : Documented cfg sband) (known : bss.htCap = some cap) (known' : bss.htOper = some oper)
    (tuned : Tuned cfg sband bss cap oper l) (ctx : Chanctx) (sta : Sta) :
    ((configBw cfg sband ctx (some sta) bss.htCap bss.htOper bss.vhtOper l).2.2 = none ↔ follows cfg bss oper ctx l = true) ∧
    ((configBw cfg sband ctx (some sta) bss.htCap bss.htOper bss.vhtOper l).2.2 = none →
      (configBw cfg sband ctx (some sta) bss.htCap bss.htOper bss.vhtOper l).2.1.isSome = true ∧
      Tuned cfg sband bss cap oper (configBw cfg sband ctx (some sta) bss.htCap bss.htOper bss.vhtOper l).1 ∧
      settled bss oper (configBw cfg sband ctx (some sta) bss.htCap bss.htOper bss.vhtOper l).1 = true) := by
  have lost := tracked_lost known tuned
  have moves := tracked_moves known tuned
  have stays := tracked_settled known tuned
  unfold configBw
  rw [known']
  dsimp only
  rw [if_neg (by simp [tuned.ht])]
  generalize trackedChandef cfg sband bss.htCap oper bss.vhtOper l = tracked at *
  obtain ⟨chandef,flags⟩ := tracked
  cases fine : settled bss oper l with
  | true =>
    rw [if_pos (stays fine)]
    exact ⟨by simp [follows,fine],fun _ => ⟨rfl,tuned_operation tuned _,fine⟩⟩
  | false =>
    obtain ⟨wide,other,vht,forty,-⟩ := unsettled_parts tuned fine
    have more : l.chandef.width ≠ .noHt20 := by
      intro width
      rw [width] at wide
      cases wide
    have narrow : ∃ bw, rxBandwidth (htChandef bss.channel oper).width = some bw ∧ (htChandef bss.channel oper).width ≠ .noHt20 := by
      obtain place | width := (htChandef_cases bss.channel oper).2
      · rw [place]
        exact ⟨.bw20,rfl,nofun⟩
      · rw [width]
        exact ⟨.bw40,rfl,nofun⟩
    obtain ⟨_,width,more'⟩ := narrow
    unfold follows
    rw [fine,Bool.false_or]
    by_cases usable : cfg.usable (htChandef bss.channel oper) false = true
    · obtain ⟨rfl,rfl⟩ := Prod.mk.inj (moves fine usable)
      rw [if_neg other]
      have masked := masked_flags tuned.ht vht forty
      by_cases refused : disableVht ≠ {l.flags with disableWmm := false} ∨ (!cfg.valid (htChandef bss.channel oper)) = true
      · rw [if_pos refused]
        refine ⟨iff_of_false nofun ?_,nofun⟩
        grind
      rw [if_neg refused,width]
      have ok := @vifChangeBandwidth_ok cfg {l with htOperationMode := oper.operationMode} ctx (htChandef bss.channel oper) other
        more' more tuned.chanctx
      have moved := @vifChangeBandwidth_moves cfg {l with htOperationMode := oper.operationMode} ctx (htChandef bss.channel oper)
      generalize vifChangeBandwidth cfg ctx (htChandef bss.channel oper) {l with htOperationMode := oper.operationMode} = out at *
      obtain ⟨_,_ | _⟩ := out
      · have place := moved rfl
        subst place
        refine ⟨iff_of_true rfl ?_,fun _ => ⟨rfl,tuned_moved tuned fine _,by simp [settled]⟩⟩
        grind
      · refine ⟨iff_of_false nofun ?_,nofun⟩
        intro both
        have can : movable cfg ctx (htChandef bss.channel oper) = true := by
          simp only [Bool.and_eq_true] at both
          exact both.2
        cases ok.mpr can
    · obtain ⟨differs,gone⟩ := lost fine usable
      rw [if_neg differs,if_pos (.inl (masked_lost gone tuned.ht forty))]
      refine ⟨iff_of_false nofun ?_,nofun⟩
      intro both
      simp only [Bool.and_eq_true] at both
      have can : cfg.usable (htChandef bss.channel oper) true = true := by
        have last := both.2
        exact (Bool.and_eq_true _ _ ▸ last).1
      exact usable (doc.fewer _ can)

end config

end Mac80211.Mlme

import Mac80211.MlmeChan

namespace Mac80211.Mlme
open Chan (Chandef Width)

def twenty (channel : Channel) : Chandef := {noHtChandef channel with width := .w20}

-- A second segment is only there for 80+80 MHz.
structure OnChannel (channel : Channel) (c : Chandef) : Prop where
  control : c.chan = channel.chan ∧ c.band = channel.band ∧ c.centerFreq = channel.centerFreq
  segment : c.width ≠ .w80p80 → c.centerFreq2 = 0

def isWide (w : Width) : Prop := w = .w80 ∨ w = .w160 ∨ w = .w80p80

inductive Reach (p : Chandef) (f : StaFlags) : Chandef → StaFlags → Prop where
  | start : Reach p f p f
  | down {c : Chandef} {g : StaFlags} : Reach p f c g → Reach p f (chandefDowngrade c).1 (g.join (chandefDowngrade c).2)

inductive Stage (channel : Channel) (p : Chandef) (f : StaFlags) : Chandef → StaFlags → Prop where
  | first : Stage channel p f p f
  | eighty (source : p.width = .w160 ∨ p.width = .w80p80) : Stage channel p f (chandefDowngrade p).1 (f.join disable160)
  | forty {c : Chandef} {g : StaFlags} (source : isWide p.width) (width : c.width = .w40) (vht : g.disableVht = true)
      (kept : g.disable40MHz = f.disable40MHz) : Stage channel p f c g
  | twenty {g : StaFlags} (vht : g.disableVht = true) (forty : g.disable40MHz = true) : Stage channel p f (twenty channel) g
  | gone {c : Chandef} {g : StaFlags} (ht : g.disableHt = true) : Stage channel p f c g

section downgrades

theorem join_assoc (a b c : StaFlags) : (a.join b).join c = a.join (b.join c) := by
  simp [StaFlags.join,Bool.or_assoc]

theorem join_none (a : StaFlags) : a.join noFlags = a := by
  simp [StaFlags.join,noFlags]

theorem downgrade_on (on : OnChannel channel c) : OnChannel channel (chandefDowngrade c).1 := by
  obtain ⟨control,segment⟩ := on
  unfold chandefDowngrade
  cases width : c.width <;> rw [width] at segment
  case w80p80 => exact ⟨control,fun _ => rfl⟩
  all_goals
    refine ⟨control,fun _ => ?_⟩
    exact segment nofun

theorem downgrade_twenty (on : OnChannel channel c) (width : c.width = .w40) : (chandefDowngrade c).1 = twenty channel := by
  obtain ⟨⟨_,_,_⟩,_⟩ := on
  unfold chandefDowngrade twenty noHtChandef
  cases c
  simp_all

theorem Reach.on (path : Reach p f c g) (on : OnChannel channel p) : OnChannel channel c := by
  induction path with
  | start => exact on
  | down _ ih => exact downgrade_on ih

theorem Reach.trans (first : Reach p f c g) (second : Reach c g d h) : Reach p f d h := by
  induction second with
  | start => exact first
  | down _ ih => exact ih.down

theorem Reach.join (path : Reach p f c g) (flags : StaFlags) : Reach p (flags.join f) c (flags.join g) := by
  induction path with
  | start => exact .start
  | down _ ih =>
    rw [← join_assoc]
    exact ih.down

theorem downgrade_stage (on : OnChannel channel p) (place : OnChannel channel c) (stage : Stage channel p f c g) :
    Stage channel p f (chandefDowngrade c).1 (g.join (chandefDowngrade c).2) := by
  have lost (c : Chandef) (ht : (chandefDowngrade c).2.disableHt = true) : Stage channel p f (chandefDowngrade c).1 (g.join (chandefDowngrade c).2) :=
    .gone (by simp [StaFlags.join,ht])
  cases stage with
  | first =>
    cases width : p.width with
    | noHt20 | w20 | w5 | w10 => exact lost p (by unfold chandefDowngrade; rw [width]; rfl)
    | w40 =>
      have flags : (chandefDowngrade p).2 = disableVht40 := by
        unfold chandefDowngrade
        rw [width]
      rw [downgrade_twenty on width,flags]
      exact .twenty (Bool.or_true _) (Bool.or_true _)
    | w80 =>
      unfold chandefDowngrade
      rw [width]
      exact .forty (.inl width) rfl (Bool.or_true _) (Bool.or_false _)
    | w80p80 =>
      have flags : (chandefDowngrade p).2 = disable160 := by
        unfold chandefDowngrade
        rw [width]
      rw [flags]
      exact .eighty (.inr width)
    | w160 =>
      have flags : (chandefDowngrade p).2 = disable160 := by
        unfold chandefDowngrade
        rw [width]
      rw [flags]
      exact .eighty (.inl width)
  | eighty source =>
    have width : (chandefDowngrade p).1.width = .w80 := by
      unfold chandefDowngrade
      obtain width | width := source <;> rw [width]
    generalize (chandefDowngrade p).1 = c at width
    unfold chandefDowngrade
    rw [width]
    exact .forty (.inr source) rfl (Bool.or_true _) (by simp [StaFlags.join,disable160,disableVht])
  | forty source width =>
    have flags : (chandefDowngrade c).2 = disableVht40 := by
      unfold chandefDowngrade
      rw [width]
    rw [downgrade_twenty place width,flags]
    exact .twenty (Bool.or_true _) (Bool.or_true _)
  | twenty => exact lost _ rfl
  | gone ht => exact .gone (by simp [StaFlags.join,ht])

theorem Reach.stage (path : Reach p f c g) (on : OnChannel channel p) : Stage channel p f c g := by
  induction path with
  | start => exact .first
  | down before ih => exact downgrade_stage on (before.on on) ih

theorem Reach.flags (path : Reach p f c g) : (f.disableHt = true → g.disableHt = true) ∧ (f.disableVht = true → g.disableVht = true) ∧
    (f.disable40MHz = true → g.disable40MHz = true) := by
  induction path with
  | start => exact ⟨id,id,id⟩
  | down _ ih =>
    obtain ⟨ht,vht,forty⟩ := ih
    refine ⟨fun set => ?_,fun set => ?_,fun set => ?_⟩
    · simp [StaFlags.join,ht set]
    · simp [StaFlags.join,vht set]
    · simp [StaFlags.join,forty set]

end downgrades

def rank : Width → Nat
  | .noHt20 => 0
  | .w20 => 1
  | .w40 => 2
  | .w80 => 3
  | .w80p80 => 4
  | .w160 => 4
  | .w5 => 0
  | .w10 => 0

section loops
variable {use : Chandef → Use}

theorem downgrade_rank (c : Chandef) : rank (chandefDowngrade c).1.width < rank c.width ∨ (chandefDowngrade c).2.disableHt = true := by
  unfold chandefDowngrade
  cases width : c.width <;> simp_all [rank,disableHtVht]

theorem makeUsable_lost (fuel : Nat) (c : Chandef) (f : StaFlags) (lost : f.disableHt = true) :
    (makeUsable usable fuel c f).2.disableHt = true := by
  induction fuel generalizing c f with
  | zero => exact lost
  | succ fuel ih =>
    unfold makeUsable
    split_ifs
    · exact lost
    · rfl
    · exact ih _ _ (by simp [StaFlags.join,lost])

theorem makeUsable_reach (fuel : Nat) (c : Chandef) (f : StaFlags) (enough : rank c.width < fuel) :
    (makeUsable usable fuel c f).2.disableHt = true ∨
    (Reach c f (makeUsable usable fuel c f).1 (makeUsable usable fuel c f).2 ∧ usable (makeUsable usable fuel c f).1 = true) := by
  induction fuel generalizing c f with
  | zero => exact absurd enough (Nat.not_lt_zero _)
  | succ fuel ih =>
    rw [makeUsable]
    by_cases fine : usable c = true
    · rw [if_pos fine]
      exact .inr ⟨.start,fine⟩
    rw [if_neg fine]
    by_cases last : c.width = .noHt20
    · rw [if_pos last]
      exact .inl rfl
    rw [if_neg last]
    obtain _ | lost := downgrade_rank c
    · obtain gone | ⟨path,fine⟩ := ih (chandefDowngrade c).1 (f.join (chandefDowngrade c).2) (by omega)
      · exact .inl gone
      · exact .inr ⟨Reach.trans (.down .start) path,fine⟩
    · exact .inl (makeUsable_lost fuel _ _ (by simp [StaFlags.join,lost]))

theorem rank_below (w : Width) : rank w < widths := by
  cases w <;> decide

theorem vifUseChannel_got (got : (vifUseChannel use c l).2 = none) :
    (vifUseChannel use c l).1 = {l with chandef := c,chanctx := true} := by
  unfold vifUseChannel at *
  cases answer : use c with
  | ok => rfl
  | refused | failed | unassigned =>
    rw [answer] at got
    cases got

theorem vifUseChannel_link (l : Link) : (vifUseChannel use c l).1.flags = l.flags ∧ (vifUseChannel use c l).1.htCapa = l.htCapa := by
  unfold vifUseChannel
  cases use c <;> exact ⟨rfl,rfl⟩

theorem useNarrower_reach (fuel : Nat) (c : Chandef) (l : Link) (err : Errno) (got : (useNarrower use fuel c (l,some err)).2 = none) :
    Reach c l.flags (useNarrower use fuel c (l,some err)).1.chandef (useNarrower use fuel c (l,some err)).1.flags ∧
    (useNarrower use fuel c (l,some err)).1.htCapa = l.htCapa ∧ (useNarrower use fuel c (l,some err)).1.chanctx = true := by
  induction fuel generalizing c l err with
  | zero => cases got
  | succ fuel ih =>
    rw [useNarrower] at got ⊢
    by_cases last : c.width = .noHt20
    · rw [if_pos (by simp [last])] at got
      cases got
    rw [if_neg (by simp [last])] at got ⊢
    dsimp only at *
    have step := @vifUseChannel_got use (chandefDowngrade c).1 {l with flags := l.flags.join (chandefDowngrade c).2}
    obtain ⟨flags,capa⟩ := @vifUseChannel_link use (chandefDowngrade c).1 {l with flags := l.flags.join (chandefDowngrade c).2}
    generalize vifUseChannel use (chandefDowngrade c).1 {l with flags := l.flags.join (chandefDowngrade c).2} = out at *
    obtain ⟨l',none | err'⟩ := out
    · have done : useNarrower use fuel (chandefDowngrade c).1 (l',none) = (l',none) := by
        cases fuel <;> simp [useNarrower]
      rw [done]
      rw [step rfl]
      exact ⟨.down .start,rfl,rfl⟩
    · obtain ⟨path,same,holds⟩ := ih (chandefDowngrade c).1 l' err' got
      rw [flags] at path
      exact ⟨Reach.trans (.down .start) path,same.trans capa,holds⟩

end loops

end Mac80211.Mlme

import Mac80211.TlRxDst

namespace Mac80211.TlRxDst
open Loops TlRx

structure Safe (s : State) : Prop where
  tf1 : s.tlRxTf1Timer = true → s.tf1Info.isSome
  tf2 : s.tlRxTf2Timer = true → s.tf2Info.isSome
  tr2 : s.tlRxTr2Timer = true → s.sdfInfo.isSome
  mcs : s.tl2hopMcsSendTimer = true → s.sdfInfo.isSome

-- A training frame not dropped and of another round than the record of its type.
def StartsTf1 (skb : Skb) (s : State) : Prop :=
  skb.byte 0 = TrType.typeOneTF.code ∧ ¬(skb.byte 13).toNat > numMcs ∧ ¬getU32 skb 1 < getU32 skb 5 ∧ sameTf1 skb s = false

def StartsTf2 (skb : Skb) (s : State) : Prop :=
  skb.byte 0 = TrType.typeTwoTF.code ∧ ¬getU32 skb 1 < getU32 skb 5 ∧ sameTf2 skb s = false

def Undisturbed : Event → State → Prop
  | .frame skb,s =>
    (StartsTf1 skb s →
      (prepare s).tlRxTf2Timer = false ∧ (prepare s).tlRxTr2Timer = false ∧ s.tl2hopMcsSendTimer = false) ∧
    (StartsTf2 skb s → (prepare s).tlRxTf1Timer = false)
  | .tf1Expires,_ => True
  | .tf2Expires,_ => True
  | .tr2Expires,s => s.tr2List = [] ∨ s.sdfInfo = none ∨ s.tl2hopMcsSendTimer = false
  | .mcsExpires,_ => True

theorem Safe.other (safe : Safe s) (par : TrParam) (kernel : Kernel) : Safe {s with par := par,kernel := kernel} :=
  {safe with}

theorem safe_kernel : Safe {s with kernel := kernel} ↔ Safe s :=
  ⟨fun safe => {safe with},fun safe => {safe with}⟩

theorem prepare_rounds (s : State) : (prepare s).tf1Info = s.tf1Info ∧ (prepare s).tf2Info = s.tf2Info ∧
    (prepare s).tf1CurIndex = s.tf1CurIndex ∧ (prepare s).tf2CurIndex = s.tf2CurIndex ∧
    (prepare s).tl2hopMcsSendTimer = s.tl2hopMcsSendTimer := by
  unfold prepare
  split <;> exact ⟨rfl,rfl,rfl,rfl,rfl⟩

theorem prepare_kernel (s : State) (kernel : Kernel) : prepare {s with kernel := kernel} = {prepare s with kernel := kernel} := by
  unfold prepare
  split
  · rfl
  · rfl

section
variable (safe : Safe s)
include safe

theorem prepare_safe : Safe (prepare s) := by
  unfold prepare
  split
  · exact ⟨fun pending => (nomatch pending),fun pending => (nomatch pending),fun pending => (nomatch pending),safe.mcs⟩
  · exact safe

theorem typeOneTF_safe (ran : typeOneTF skb s = some t) :
    Safe t ↔ (sameTf1 skb s = false → s.tlRxTf2Timer = false ∧ s.tlRxTr2Timer = false ∧ s.tl2hopMcsSendTimer = false) := by
  cases same : sameTf1 skb s with
  | true =>
    obtain ⟨_,_,_,rfl⟩ := typeOneTF_same ran same
    exact ⟨fun _ other => (nomatch other),fun _ => ⟨fun _ => rfl,safe.tf2,safe.tr2,safe.mcs⟩⟩
  | false =>
    obtain ⟨_,rfl⟩ := typeOneTF_round ran same
    constructor
    · intro after _
      refine ⟨?_,?_,?_⟩
      · exact Bool.eq_false_iff.mpr fun pending => nomatch after.tf2 pending
      · exact Bool.eq_false_iff.mpr fun pending => nomatch after.tr2 pending
      · exact Bool.eq_false_iff.mpr fun pending => nomatch after.mcs pending
    · intro idle
      obtain ⟨tf2,tr2,mcs⟩ := idle rfl
      refine ⟨fun _ => rfl,fun pending => ?_,fun pending => ?_,fun pending => ?_⟩
      · exact absurd pending (by simp [tf2])
      · exact absurd pending (by simp [tr2])
      · exact absurd pending (by simp [mcs])

theorem typeTwoTF_safe (ran : typeTwoTF skb s = some t) : Safe t ↔ (sameTf2 skb s = false → s.tlRxTf1Timer = false) := by
  cases same : sameTf2 skb s with
  | true =>
    obtain ⟨_,_,rfl⟩ := typeTwoTF_same ran same
    exact ⟨fun _ other => (nomatch other),fun _ => ⟨safe.tf1,fun _ => rfl,safe.tr2,safe.mcs⟩⟩
  | false =>
    obtain ⟨_,_,_,rfl⟩ := typeTwoTF_round ran same
    constructor
    · intro after _
      exact Bool.eq_false_iff.mpr fun pending => nomatch after.tf1 pending
    · intro idle
      refine ⟨fun pending => ?_,fun _ => rfl,safe.tr2,safe.mcs⟩
      exact absurd pending (by simp [idle rfl])

theorem typeTwoTR_safe (known : s.sdfInfo = some sdf) (skb : Skb) : Safe (typeTwoTR skb sdf s) := by
  have there : s.sdfInfo.isSome := by rw [known]; rfl
  unfold typeTwoTR
  split <;> exact ⟨safe.tf1,safe.tf2,fun _ => there,fun _ => there⟩

theorem sendTF_safe (ran : sendTF room skb s = some t) : Safe t := by
  rcases sendTF_cases ran with rfl | ⟨_,_,_,_,_,_,_,_,_,rfl⟩
  · exact safe
  · exact ⟨safe.tf1,safe.tf2,fun _ => rfl,fun _ => rfl⟩

theorem handles_safe (handles : Handles room skb s t) :
    Safe t ↔ (StartsTf1 skb s → s.tlRxTf2Timer = false ∧ s.tlRxTr2Timer = false ∧ s.tl2hopMcsSendTimer = false) ∧
      (StartsTf2 skb s → s.tlRxTf1Timer = false) := by
  cases handles with
  | invalid kind bad =>
    refine iff_of_true safe ⟨fun starts => absurd bad starts.2.1,fun starts => ?_⟩
    exact absurd (kind.symm.trans starts.1) (by decide)
  | late number =>
    exact iff_of_true (safe_kernel.mpr safe) ⟨fun starts => absurd number starts.2.2.1,fun starts => absurd number starts.2.1⟩
  | ignored one two par kernel =>
    exact iff_of_true (safe.other par kernel) ⟨fun starts => absurd starts.1 one,fun starts => absurd starts.1 two⟩
  | typeOneTF kind valid number ran =>
    rw [safe_kernel,typeOneTF_safe safe ran]
    refine ⟨fun idle => ⟨fun starts => idle starts.2.2.2,fun starts => ?_⟩,fun idle other => ?_⟩
    · exact absurd (kind.symm.trans starts.1) (by decide)
    · exact idle.1 ⟨kind,valid,number,other⟩
  | typeTwoTF kind number ran =>
    rw [safe_kernel,typeTwoTF_safe safe ran]
    refine ⟨fun idle => ⟨fun starts => ?_,fun starts => idle starts.2.2⟩,fun idle other => ?_⟩
    · exact absurd (kind.symm.trans starts.1) (by decide)
    · exact idle.2 ⟨kind,number,other⟩
  | typeTwoTR kind known =>
    refine iff_of_true (safe_kernel.mpr (typeTwoTR_safe safe known skb)) ⟨fun starts => ?_,fun starts => ?_⟩
    · exact absurd (kind.symm.trans starts.1) (by decide)
    · exact absurd (kind.symm.trans starts.1) (by decide)
  | sendTF kind ran =>
    refine iff_of_true (safe_kernel.mpr (sendTF_safe safe ran)) ⟨fun starts => ?_,fun starts => ?_⟩
    · exact absurd (kind.symm.trans starts.1) (by decide)
    · exact absurd (kind.symm.trans starts.1) (by decide)

theorem step_safe (occurs : e.Occurs s) (ran : step room e s = some t) : Safe t ↔ Undisturbed e s := by
  cases e with
  | frame =>
    obtain ⟨tf1,tf2,index1,index2,mcs⟩ := prepare_rounds s
    refine (handles_safe (prepare_safe (safe_kernel.mpr safe)) (frame_cases ran)).trans ?_
    rw [prepare_kernel]
    simp only [Undisturbed,StartsTf1,StartsTf2,sameTf1,sameTf2,tf1,tf2,index1,index2,mcs]
    exact Iff.rfl
  | tf1Expires =>
    obtain ⟨_,_,_,_,_,_,rfl⟩ := tf_cases (.inl rfl) ran
    exact iff_of_true ⟨fun _ => safe.tf1 occurs,safe.tf2,safe.tr2,safe.mcs⟩ trivial
  | tf2Expires =>
    obtain ⟨_,_,_,_,_,_,rfl⟩ := tf_cases (.inr rfl) ran
    exact iff_of_true ⟨safe.tf1,fun _ => safe.tf2 occurs,safe.tr2,safe.mcs⟩ trivial
  | tr2Expires =>
    cases ran
    rcases tr2_cases (room 0) {s with tlRxTr2Timer := false} with ⟨empty,same⟩ | ⟨list,known,_,_,_,same⟩
    · rw [same]
      have waits : s.tr2List = [] ∨ s.sdfInfo = none ∨ s.tl2hopMcsSendTimer = false := by
        rcases empty with empty | unknown
        · exact Or.inl empty
        · exact Or.inr (Or.inl unknown)
      exact iff_of_true ⟨safe.tf1,safe.tf2,fun pending => (nomatch pending),safe.mcs⟩ waits
    rw [same]
    constructor
    · intro after
      exact Or.inr (Or.inr (Bool.eq_false_iff.mpr fun pending => nomatch after.mcs pending))
    · intro idle
      refine ⟨safe.tf1,safe.tf2,fun pending => (nomatch pending),fun pending => ?_⟩
      rcases idle with empty | unknown | idle
      · exact absurd empty list
      · exact absurd known (by simp [unknown])
      · exact absurd pending (by simp [idle])
  | mcsExpires =>
    obtain ⟨_,_,_,_,_,_,_,rfl⟩ := mcs_cases ran
    have there : s.sdfInfo.isSome := safe.mcs occurs
    exact iff_of_true ⟨safe.tf1,safe.tf2,fun _ => there,fun _ => there⟩ trivial

end

theorem timers_safe (reached : Runs random Undisturbed s) : Safe s := by
  refine reached.keeps Safe ?_ ?_
  · exact ⟨fun pending => (nomatch pending),fun pending => (nomatch pending),fun pending => (nomatch pending),
      fun pending => (nomatch pending)⟩
  · intro _ e s t safe occurs undisturbed ran
    exact (step_safe safe occurs ran).mpr undisturbed

namespace TimersSample
open TlRx.Sample

def one : Skb := frame source [1,0,0,0,5,0,0,0,1,0,0,0,7,0]
def two : Skb := frame source [2,0,0,0,5,0,0,0,1,0,0,0,9,0]
def start : State := initial fun _ => 0
def heard : State := (step room (.frame one) start).getD start
def both : State := (step room (.frame two) heard).getD heard

end TimersSample

theorem timers_safe_sample : TimersSample.heard.tlRxTf1Timer = true ∧ Safe TimersSample.heard :=
  ⟨rfl,timers_safe (.step (e := .frame TimersSample.one) .start trivial
    ⟨fun starts => (nomatch starts.2.2.2),fun starts => (nomatch starts.1)⟩
      (show step Sample.room _ TimersSample.start = some TimersSample.heard from rfl))⟩

theorem timer_orphaned : ∃ s, Runs (fun _ => 0) (fun _ _ => True) s ∧ s.tlRxTf1Timer = true ∧ s.tf1Info = none ∧ ¬Safe s ∧
    step Sample.room .tf1Expires s = none := by
  have heard : Runs (fun _ => 0) (fun _ _ => True) TimersSample.heard :=
    .step (e := .frame TimersSample.one) .start trivial trivial (show step Sample.room _ _ = some TimersSample.heard from rfl)
  have both : Runs (fun _ => 0) (fun _ _ => True) TimersSample.both :=
    .step (e := .frame TimersSample.two) heard trivial trivial (show step Sample.room _ _ = some TimersSample.both from rfl)
  exact ⟨_,both,rfl,rfl,fun safe => (nomatch safe.tf1 rfl),rfl⟩

end Mac80211.TlRxDst

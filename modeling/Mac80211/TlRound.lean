import Mac80211.TlReport
import Mac80211.TlTimers

namespace Mac80211.TlRound
open Loops TlRx TlRxDst
open TlReport (HoldsNbr putNbrs_holds)
open Option (map_eq_some_iff)

def accepted (skb : Skb) : Bool :=
  skb.byte 0 == TrType.typeOneTF.code && decide ((skb.byte 13).toNat ≤ numMcs) && decide (getU32 skb 5 ≤ getU32 skb 1)

-- The index of the last training frame of the first type, and the frames since the first of its round.
structure Round where
  index : Option UInt32
  frames : List Skb

def Round.begins (round : Round) : Event → Bool
  | .frame skb => accepted skb && round.index != some (getU32 skb 9)
  | _ => false

def Round.after (round : Round) : Event → Round
  | .frame skb =>
    ⟨if accepted skb then some (getU32 skb 9) else round.index,
      if round.begins (.frame skb) then [skb] else round.frames ++ [skb]⟩
  | _ => round

structure Discarded (s : State) : Prop where
  neighbours : s.tr2List = []
  two : s.tf2Info = none
  asked : s.sdfInfo = none
  par : s.par = trSetParam false false 10 0 0 0 0
  tf1Prev : s.tf1PrevRcvNum = 0
  tf2Prev : s.tf2PrevRcvNum = 0

-- A frame of the first type sets nothing back without a record of that type, and never the second counter.
def Resettable (s : State) : Prop := s.tf2PrevRcvNum = 0 ∧ (s.tf1Info.isSome = true ∨ Discarded s)

def Round.Resets (round : Round) (e : Event) (s : State) : Prop := round.begins e = true → Resettable s

inductive Rounds (random : Nat → UInt8) (met : Round → Event → State → Prop) : Round → State → Prop where
  | start : Rounds random met ⟨none,[]⟩ (initial random)
  | step {round : Round} (prior : Rounds random met round s) (occurs : e.Occurs s) (ok : met round e s) (ran : step room e s = some t) :
      Rounds random met (round.after e) t

def Counts (type : TrType) (heard : List Skb) (info : TrInfo) : Prop :=
  ∃ frames : List Skb, frames.Sublist heard ∧ (∀ skb ∈ frames, skb.byte 0 = type.code ∧ saddr skb = info.addr) ∧
    ∀ mcs (small : mcs < 8), info.rcvNum[mcs] = UInt32.ofNat (frames.countP fun skb => (skb.byte 13).toNat == mcs)

def Neighbour (heard : List Skb) (info : TrInfo) : Prop :=
  ∃ skb ∈ heard, skb.byte 0 = TrType.typeTwoTR.code ∧ info.addr = saddr skb ∧ info.rcvNum = getRcv skb 3

def Asked (heard : List Skb) (sdf : TrInfo) : Prop :=
  ∃ skb ∈ heard, skb.byte 0 = TrType.sendTF.code ∧ sdf.addr = saddr skb ∧ sdf.totalNum = getU32 skb 1

structure Current (round : Round) (s : State) : Prop where
  index : s.tf1Info.isSome = true → round.index = some s.tf1CurIndex
  fresh : s.forInit = true → s.tr2List = []
  one : ∀ info, s.tf1Info = some info → Counts .typeOneTF round.frames info
  two : ∀ info, s.tf2Info = some info → Counts .typeTwoTF round.frames info
  neighbours : ∀ info ∈ s.tr2List, Neighbour round.frames info
  asked : ∀ sdf, s.sdfInfo = some sdf → Asked round.frames sdf

-- What is sent, and the frames the counts in it are from.
inductive Told (heard : List Skb) : Fate → Prop where
  | freed (skb : Skb) : Told heard (.freed skb)
  | training (kind : otf.byte 14 = TrType.typeTwoTF.code) (dev : NetDevice) : Told heard (.sent otf dev)
  | typeOneTR (kind : rpt.byte 14 = TrType.typeOneTR.code) (counts : Counts .typeOneTF heard info)
      (reads : getRcv rpt 17 = info.rcvNum) (dev : NetDevice) : Told heard (.sent rpt dev)
  | typeTwoTR (kind : rpt.byte 14 = TrType.typeTwoTR.code) (counts : Counts .typeTwoTF heard info)
      (reads : getRcv rpt 17 = info.rcvNum) (dev : NetDevice) : Told heard (.sent rpt dev)
  | nbrRPT (list : List TrInfo) (kind : rpt.byte 14 = TrType.nbrRPT.code) (number : rpt.byte 19 = UInt8.ofNat list.length)
      (neighbours : ∀ info ∈ list, Neighbour heard info)
      (reads : ∀ j (h : j < list.length), HoldsNbr rpt (20 + 40 * j) list[j]) (dev : NetDevice) : Told heard (.sent rpt dev)

variable {round : Round} {s t : State}

theorem Counts.grow (counts : Counts type before info) (longer : before.Sublist heard) : Counts type heard info := by
  obtain ⟨frames,part,alike,number⟩ := counts
  exact ⟨frames,part.trans longer,alike,number⟩

theorem Counts.none (type : TrType) (heard : List Skb) (zero : info.rcvNum = zeroRcv) : Counts type heard info := by
  refine ⟨[],List.nil_sublist heard,?_,?_⟩
  · intro _ member
    cases member
  · intro _ _
    simp [zero,zeroRcv]

theorem Counts.count (counts : Counts type heard info) (kind : skb.byte 0 = type.code) (sender : info.addr = saddr skb)
    (counted : countRcv (skb.byte 13) info = some after) : Counts type (heard ++ [skb]) after := by
  obtain ⟨frames,part,alike,number⟩ := counts
  unfold countRcv at counted
  split at counted
  · cases counted
    refine ⟨frames ++ [skb],part.append (List.Sublist.refl [skb]),?_,?_⟩
    · intro frame member
      rcases List.mem_append.mp member with old | new
      · exact alike frame old
      · cases List.mem_singleton.mp new
        exact ⟨kind,sender.symm⟩
    · intro mcs _
      by_cases same : (skb.byte 13).toNat = mcs
      · subst same
        simp [number,UInt32.ofNat_add]
      · simp [same,number]
  · cases counted

theorem Neighbour.grow (neighbour : Neighbour before info) (longer : before.Sublist heard) : Neighbour heard info := by
  obtain ⟨skb,member,told⟩ := neighbour
  exact ⟨skb,longer.subset member,told⟩

theorem Asked.grow (asked : Asked before sdf) (longer : before.Sublist heard) : Asked heard sdf := by
  obtain ⟨skb,member,told⟩ := asked
  exact ⟨skb,longer.subset member,told⟩

theorem accepted_kind (taken : accepted skb = true) : skb.byte 0 = TrType.typeOneTF.code := by
  simp only [accepted,Bool.and_eq_true,beq_iff_eq] at taken
  exact taken.1.1

theorem begins_cases (begins : round.begins e = true) :
    ∃ skb, e = .frame skb ∧ accepted skb = true ∧ round.index ≠ some (getU32 skb 9) := by
  cases e with
  | frame skb =>
    simp only [Round.begins,Bool.and_eq_true,bne_iff_ne] at begins
    exact ⟨skb,rfl,begins.1,begins.2⟩
  | tf1Expires | tf2Expires | tr2Expires | mcsExpires => cases begins

theorem typeOneTF_discards (index : s.tf1Info.isSome = true → round.index = some s.tf1CurIndex)
    (other : round.index ≠ some (getU32 skb 9)) (ran : typeOneTF skb s = some t) : Discarded t ↔ Resettable s := by
  cases known : s.tf1Info with
  | none =>
    have same : sameTf1 skb s = true := by simp [sameTf1,known]
    obtain ⟨_,_,_,rfl⟩ := typeOneTF_same ran same
    constructor
    · intro gone
      exact ⟨gone.tf2Prev,.inr {gone with}⟩
    · intro resets
      rcases resets.2 with there | gone
      · simp [known] at there
      · exact {gone with}
  | some =>
    have there : s.tf1Info.isSome = true := by simp [known]
    have apart : s.tf1CurIndex ≠ getU32 skb 9 := by
      intro same
      exact other ((index there).trans (congrArg some same))
    have different : sameTf1 skb s = false := by simp [sameTf1,known,apart]
    obtain ⟨_,rfl⟩ := typeOneTF_round ran different
    constructor
    · intro gone
      exact ⟨gone.tf2Prev,.inl there⟩
    · intro resets
      exact ⟨rfl,rfl,rfl,rfl,rfl,resets.1⟩

theorem typeOneTF_counts (index : s.tf1Info.isSome = true → round.index = some s.tf1CurIndex)
    (one : ∀ info, s.tf1Info = some info → Counts .typeOneTF round.frames info) (taken : accepted skb = true)
    (ran : typeOneTF skb s = some t) : ∀ info, t.tf1Info = some info → Counts .typeOneTF (round.after (.frame skb)).frames info := by
  obtain ⟨after,counted,record,-⟩ := typeOneTF_record ran
  obtain ⟨sender,origin⟩ := tf1Record_cases skb s
  intro _ known
  cases record.symm.trans known
  simp only [Round.after,Round.begins,taken,Bool.true_and]
  split
  · rename_i begins
    rcases origin with ⟨old,same⟩ | zero
    · have last := index (by simp [old])
      simp [last,same] at begins
    · exact (Counts.none _ [] zero).count (accepted_kind taken) sender counted
  · rcases origin with ⟨old,_⟩ | zero
    · exact (one _ old).count (accepted_kind taken) sender counted
    · exact (Counts.none _ round.frames zero).count (accepted_kind taken) sender counted

theorem handles_renamed (handles : Handles room {skb with id := n} s t) : Handles room skb s t := by
  cases handles with
  | invalid kind bad => exact @Handles.invalid room skb s kind bad
  | late number kernel => exact @Handles.late room skb s number kernel
  | ignored one two par kernel => exact @Handles.ignored room skb s one two par kernel
  | typeOneTF kind valid number ran kernel => exact @Handles.typeOneTF room skb s _ kind valid number ran kernel
  | typeTwoTF kind number ran kernel => exact @Handles.typeTwoTF room skb s _ kind number ran kernel
  | typeTwoTR kind known kernel => exact @Handles.typeTwoTR room skb s _ kind known kernel
  | sendTF kind ran kernel => exact @Handles.sendTF room skb s _ kind ran kernel

theorem current_kernel (current : Current round s) (kernel : Kernel) : Current round {s with kernel := kernel} :=
  {current with}

theorem current_prepare (current : Current round s) : Current round (prepare s) := by
  unfold prepare
  split
  · constructor
    · exact current.index
    · intro _
      rfl
    · exact current.one
    · exact current.two
    · intro _ member
      cases member
    · exact current.asked
  · exact current

theorem prepare_set (s : State) : (prepare s).forInit = false := by
  unfold prepare
  split
  · rfl
  · rename_i set
    exact Bool.eq_false_iff.mpr set

theorem Current.hear (current : Current round s) (skb : Skb) : Current ⟨round.index,round.frames ++ [skb]⟩ s := by
  have longer := List.sublist_append_left round.frames [skb]
  constructor
  · exact current.index
  · exact current.fresh
  · exact fun info known => (current.one info known).grow longer
  · exact fun info known => (current.two info known).grow longer
  · exact fun info member => (current.neighbours info member).grow longer
  · exact fun sdf known => (current.asked sdf known).grow longer

theorem after_other (dropped : accepted skb = false) : round.after (.frame skb) = ⟨round.index,round.frames ++ [skb]⟩ := by
  simp [Round.after,Round.begins,dropped]

theorem not_accepted (kind : skb.byte 0 ≠ TrType.typeOneTF.code) : accepted skb = false := by
  apply Bool.eq_false_iff.mpr
  intro taken
  exact kind (accepted_kind taken)

theorem typeOneTF_current (current : Current round s) (set : s.forInit = false) (taken : accepted skb = true)
    (resets : round.begins (.frame skb) = true → Resettable s) (ran : typeOneTF skb s = some t) :
    Current (round.after (.frame skb)) t := by
  have counts := typeOneTF_counts current.index current.one taken ran
  obtain ⟨_,_,_,index⟩ := typeOneTF_record ran
  have known : (round.after (.frame skb)).index = some t.tf1CurIndex := by simp [Round.after,taken,index]
  cases begins : round.begins (.frame skb) with
  | true =>
    have other : round.index ≠ some (getU32 skb 9) := by simpa [Round.begins,taken] using begins
    have gone := (typeOneTF_discards current.index other ran).mpr (resets begins)
    constructor
    · exact fun _ => known
    · exact fun _ => gone.neighbours
    · exact counts
    · simp [gone.two]
    · simp [gone.neighbours]
    · simp [gone.asked]
  | false =>
    have frames : (round.after (.frame skb)).frames = round.frames ++ [skb] := by simp [Round.after,begins]
    have heard := current.hear skb
    cases same : sameTf1 skb s with
    | true =>
      obtain ⟨_,_,_,rfl⟩ := typeOneTF_same ran same
      constructor
      · exact fun _ => known
      · exact fun unset => absurd unset (by simp [set])
      · exact counts
      · simpa only [frames] using heard.two
      · simpa only [frames] using heard.neighbours
      · simpa only [frames] using heard.asked
    | false =>
      obtain ⟨_,rfl⟩ := typeOneTF_round ran same
      constructor
      · exact fun _ => known
      · exact fun _ => rfl
      · exact counts
      · simp
      · simp
      · simp

theorem typeTwoTF_current (current : Current round s) (kind : skb.byte 0 = TrType.typeTwoTF.code)
    (ran : typeTwoTF skb s = some t) : Current ⟨round.index,round.frames ++ [skb]⟩ t := by
  obtain ⟨_,counted,record⟩ := typeTwoTF_record ran
  obtain ⟨sender,origin⟩ := tf2Record_cases skb s
  have heard := current.hear skb
  have counts : ∀ info, t.tf2Info = some info → Counts .typeTwoTF (round.frames ++ [skb]) info := by
    intro _ known
    cases record.symm.trans known
    rcases origin with old | zero
    · exact (current.two _ old).count kind sender counted
    · exact (Counts.none _ round.frames zero).count kind sender counted
  cases same : sameTf2 skb s with
  | true =>
    obtain ⟨_,_,rfl⟩ := typeTwoTF_same ran same
    exact ⟨heard.index,heard.fresh,heard.one,counts,heard.neighbours,heard.asked⟩
  | false =>
    obtain ⟨_,_,_,rfl⟩ := typeTwoTF_round ran same
    constructor
    · intro there
      cases there
    · exact heard.fresh
    · intro _ known
      cases known
    · exact counts
    · exact heard.neighbours
    · exact heard.asked

theorem update_member (member : info ∈ trInfoUpdate addr change list) :
    info ∈ list ∨ ∃ old ∈ list, old.addr = addr ∧ info = change old := by
  induction list with
  | nil => cases member
  | cons first rest ih =>
    unfold trInfoUpdate at member
    split at member
    · rename_i same
      rcases List.mem_cons.mp member with here | later
      · exact .inr ⟨first,List.mem_cons_self,beq_iff_eq.mp same,here⟩
      · exact .inl (List.mem_cons_of_mem first later)
    · rcases List.mem_cons.mp member with here | later
      · exact .inl (here ▸ List.mem_cons_self)
      · rcases ih later with kept | ⟨old,there,same,changed⟩
        · exact .inl (List.mem_cons_of_mem first kept)
        · exact .inr ⟨old,List.mem_cons_of_mem first there,same,changed⟩

section
variable (current : Current round s)
include current

theorem typeTwoTR_current (kind : skb.byte 0 = TrType.typeTwoTR.code) (set : s.forInit = false)
    (sdf : TrInfo) : Current ⟨round.index,round.frames ++ [skb]⟩ (typeTwoTR skb sdf s) := by
  have heard := current.hear skb
  have here : skb ∈ round.frames ++ [skb] := List.mem_append_right _ (List.mem_singleton_self skb)
  unfold typeTwoTR
  split
  · constructor
    · exact heard.index
    · exact fun unset => absurd unset (by simp [set])
    · exact heard.one
    · exact heard.two
    · intro info member
      rcases List.mem_append.mp member with old | new
      · exact heard.neighbours info old
      · cases List.mem_singleton.mp new
        exact ⟨skb,here,kind,rfl,rfl⟩
    · exact heard.asked
  constructor
  · exact heard.index
  · exact fun unset => absurd unset (by simp [set])
  · exact heard.one
  · exact heard.two
  · intro info member
    rcases update_member member with old | ⟨old,_,same,rfl⟩
    · exact heard.neighbours info old
    · exact ⟨skb,here,kind,same,rfl⟩
  · exact heard.asked

theorem sendTF_current (kind : skb.byte 0 = TrType.sendTF.code) (ran : sendTF room skb s = some t) :
    Current ⟨round.index,round.frames ++ [skb]⟩ t := by
  have heard := current.hear skb
  have here : skb ∈ round.frames ++ [skb] := List.mem_append_right _ (List.mem_singleton_self skb)
  unfold sendTF at ran
  split at ran
  · cases ran
    exact heard
  obtain ⟨_,_,_,_,_,_,_,rfl⟩ := mcs_cases ran
  constructor
  · exact heard.index
  · exact heard.fresh
  · exact heard.one
  · exact heard.two
  · exact heard.neighbours
  · intro _ known
    cases known
    exact ⟨skb,here,kind,rfl,rfl⟩

theorem handles_current (set : s.forInit = false)
    (resets : round.begins (.frame skb) = true → Resettable s) (handles : Handles room skb s t) :
    Current (round.after (.frame skb)) t := by
  cases handles with
  | invalid kind bad =>
    have dropped : accepted skb = false := by simp [accepted,bad]
    rw [after_other dropped]
    exact current.hear skb
  | late number kernel =>
    have dropped : accepted skb = false := by simp [accepted,number]
    rw [after_other dropped]
    exact current_kernel (current.hear skb) kernel
  | ignored one two =>
    rw [after_other (not_accepted one)]
    have heard := current.hear skb
    exact {heard with}
  | typeOneTF kind valid number ran kernel =>
    have taken : accepted skb = true := by
      simp [accepted,kind,Nat.le_of_not_lt valid,UInt32.not_lt.mp number]
    exact current_kernel (typeOneTF_current current set taken resets ran) kernel
  | typeTwoTF kind number ran kernel =>
    rw [after_other (not_accepted (by rw [kind]; decide))]
    exact current_kernel (typeTwoTF_current current kind ran) kernel
  | typeTwoTR kind known kernel =>
    rw [after_other (not_accepted (by rw [kind]; decide))]
    exact current_kernel (typeTwoTR_current current kind set _) kernel
  | sendTF kind ran kernel =>
    rw [after_other (not_accepted (by rw [kind]; decide))]
    exact current_kernel (sendTF_current current kind ran) kernel

theorem resettable_prepare (kernel : Kernel) : Resettable (prepare {s with kernel := kernel}) ↔ Resettable s := by
  unfold prepare
  split
  · rename_i unset
    have empty := current.fresh unset
    constructor
    · intro ⟨zero,way⟩
      refine ⟨zero,way.imp_right fun gone => ?_⟩
      exact ⟨empty,gone.two,gone.asked,gone.par,gone.tf1Prev,gone.tf2Prev⟩
    · intro ⟨zero,way⟩
      refine ⟨zero,way.imp_right fun gone => ?_⟩
      exact ⟨rfl,gone.two,gone.asked,gone.par,gone.tf1Prev,gone.tf2Prev⟩
  · constructor <;>
    · intro ⟨zero,way⟩
      refine ⟨zero,way.imp_right fun gone => ?_⟩
      exact {gone with}

theorem step_current (resets : round.begins e = true → Resettable s)
    (ran : step room e s = some t) : Current (round.after e) t := by
  cases e with
  | frame =>
    have ready := current_prepare (current_kernel current {s.kernel with nextSkb := s.kernel.nextSkb + 1})
    apply handles_current ready (prepare_set _) _ (handles_renamed (frame_cases ran))
    exact fun begins => (resettable_prepare current _).mpr (resets begins)
  | tf1Expires =>
    obtain ⟨_,_,_,_,_,_,rfl⟩ := tf_cases (.inl rfl) ran
    exact {current with}
  | tf2Expires =>
    obtain ⟨_,_,_,_,_,_,rfl⟩ := tf_cases (.inr rfl) ran
    exact {current with}
  | tr2Expires =>
    cases ran
    rcases tr2_cases (room 0) {s with tlRxTr2Timer := _} with ⟨_,same⟩ | ⟨_,_,_,_,kept,same⟩
    · rw [same]
      exact {current with}
    rw [same]
    constructor
    · exact current.index
    · intro unset
      rcases kept with empty | all
      · exact empty
      · exact all.trans (current.fresh unset)
    · exact current.one
    · exact current.two
    · intro info member
      rcases kept with rfl | rfl
      · cases member
      · exact current.neighbours info member
    · intro _ known
      cases known
  | mcsExpires =>
    obtain ⟨_,_,_,_,_,_,_,rfl⟩ := mcs_cases ran
    exact {current with}

theorem step_discards (begins : round.begins e = true) (ran : step room e s = some t) : Discarded t ↔ Resettable s := by
  obtain ⟨_,rfl,taken,other⟩ := begins_cases begins
  have kind := accepted_kind taken
  simp only [accepted,Bool.and_eq_true,decide_eq_true_eq] at taken
  obtain ⟨⟨-,valid⟩,number⟩ := taken
  have ready := current_prepare (current_kernel current {s.kernel with nextSkb := s.kernel.nextSkb + 1})
  cases handles_renamed (frame_cases ran) with
  | invalid _ bad => exact absurd valid bad.not_ge
  | late late => exact absurd number (UInt32.not_le.mpr late)
  | ignored one => exact absurd kind one
  | typeOneTF _ _ _ handled =>
    have discards := (typeOneTF_discards ready.index other handled).trans (resettable_prepare current _)
    constructor
    · intro gone
      exact discards.mp {gone with}
    · intro resets
      have gone := discards.mpr resets
      exact {gone with}
  | typeTwoTF two | typeTwoTR two => exact absurd (kind.symm.trans two) (by decide)
  | sendTF sent => exact absurd (kind.symm.trans sent) (by decide)

end

variable {middle : Kernel}

def Adds (heard : List Skb) (before after : Kernel) : Prop :=
  ∃ new, after.log = before.log ++ new ∧ ∀ fate ∈ new, Told heard fate

theorem Adds.of_log (same : after.log = before.log) : Adds heard before after := by
  refine ⟨[],?_,?_⟩
  · simp [same]
  · intro _ member
    cases member

theorem Adds.refl (heard : List Skb) (kernel : Kernel) : Adds heard kernel kernel := Adds.of_log rfl

theorem Adds.trans (first : Adds heard before middle) (second : Adds heard middle after) : Adds heard before after := by
  obtain ⟨early,earlyLog,earlyTold⟩ := first
  obtain ⟨late,lateLog,lateTold⟩ := second
  refine ⟨early ++ late,?_,?_⟩
  · rw [lateLog,earlyLog,List.append_assoc]
  · intro fate member
    rcases List.mem_append.mp member with old | new
    · exact earlyTold fate old
    · exact lateTold fate new

theorem Adds.record (told : Told heard fate) (same : middle.log = before.log) : Adds heard before (middle.record fate) := by
  refine ⟨[fate],?_,?_⟩
  · simp [Kernel.record,same]
  · intro _ member
    cases List.mem_singleton.mp member
    exact told

section
variable (heard : List Skb)

theorem trainingFrame_adds (room : Bool) (dev : NetDevice) (k trId : UInt32) (mcs : UInt8) (i : Nat)
    (kernel : Kernel) : Adds heard kernel (trainingFrame .typeTwoTF room dev k trId mcs i kernel) := by
  rcases trainingFrame_cases .typeTwoTF room dev k trId mcs i kernel with same | ⟨s,sent,kind,log⟩
  · rw [same]
    exact Adds.refl heard kernel
  · rw [sent]
    exact Adds.record (.training kind s.1.dev) log

theorem sendTrainingFrames_adds
    (sent : sendTrainingFrames .typeTwoTF room dev k trId mcs before = some after) : Adds heard before after := by
  unfold sendTrainingFrames at sent
  split at sent
  · cases sent
    exact Adds.refl heard before
  · obtain ⟨dev,_,rfl⟩ := map_eq_some_iff.mp sent
    apply forRange_keeps (fun kernel : Kernel => Adds heard before kernel) (Adds.refl heard before)
    intro i kernel _ _ kept
    exact kept.trans (trainingFrame_adds heard (room i) dev k trId mcs i kernel)

theorem mcs_sends (sent : (sendTrainingFrames .typeTwoTF room dev k trId mcs before).map body = some t)
    (same : ∀ kernel, (body kernel).kernel = kernel) : Adds heard before t.kernel := by
  obtain ⟨_,ran,rfl⟩ := map_eq_some_iff.mp sent
  rw [same]
  exact sendTrainingFrames_adds heard ran

theorem mcs_adds (ran : tl2hopMcsSendTimerFunc room s = some t) : Adds heard s.kernel t.kernel := by
  unfold tl2hopMcsSendTimerFunc at ran
  split at ran
  · have drawn : Adds heard s.kernel (drawTrId s.lastTf2Id s.kernel).2 := Adds.of_log (drawTrId_log s.lastTf2Id s.kernel)
    dsimp only at ran
    split at ran
    · cases ran
    · apply drawn.trans (mcs_sends heard ran _)
      intro _
      split
      · rfl
      · rfl
  · dsimp only at ran
    split at ran
    · cases ran
    · apply mcs_sends heard ran
      intro _
      split
      · rfl
      · rfl

theorem sendTF_adds (ran : sendTF room skb s = some t) : Adds heard s.kernel t.kernel := by
  unfold sendTF at ran
  split at ran
  · cases ran
    exact Adds.refl heard s.kernel
  · have sent := mcs_adds heard ran
    exact sent

end

theorem typeOneTF_kernel (ran : typeOneTF skb s = some t) : t.kernel = s.kernel := by
  cases same : sameTf1 skb s with
  | true =>
    obtain ⟨_,_,_,rfl⟩ := typeOneTF_same ran same
    rfl
  | false =>
    obtain ⟨_,rfl⟩ := typeOneTF_round ran same
    rfl

theorem typeTwoTF_kernel (ran : typeTwoTF skb s = some t) : t.kernel = s.kernel := by
  cases same : sameTf2 skb s with
  | true =>
    obtain ⟨_,_,rfl⟩ := typeTwoTF_same ran same
    rfl
  | false =>
    obtain ⟨_,_,_,rfl⟩ := typeTwoTF_round ran same
    rfl

theorem typeTwoTR_kernel (skb : Skb) (sdf : TrInfo) (s : State) : (typeTwoTR skb sdf s).kernel = s.kernel := by
  unfold typeTwoTR
  split
  · rfl
  · rfl

theorem receive_adds (heard : List Skb) (ran : tlReceiveSkbDst room skb s = some t) : Adds heard s.kernel t.kernel := by
  have ready : (prepare s).kernel = s.kernel := by
    unfold prepare
    split
    · rfl
    · rfl
  rw [← ready]
  have freed : ∀ kernel, Adds heard kernel (kfreeSkb (some skb) kernel) := fun kernel => Adds.record (.freed skb) rfl
  unfold tlReceiveSkbDst at ran
  dsimp only at ran
  generalize prepare s = s at ran ⊢
  split at ran
  · split at ran
    · cases ran
      exact Adds.refl heard _
    · split at ran
      · cases ran
        exact freed _
      · obtain ⟨u,handled,rfl⟩ := map_eq_some_iff.mp ran
        exact (Adds.of_log (by rw [typeOneTF_kernel handled])).trans (freed u.kernel)
  split at ran
  · split at ran
    · cases ran
      exact freed _
    · obtain ⟨u,handled,rfl⟩ := map_eq_some_iff.mp ran
      exact (Adds.of_log (by rw [typeTwoTF_kernel handled])).trans (freed u.kernel)
  split at ran
  · split at ran
    · rename_i sdf _ _
      cases ran
      exact (Adds.of_log (by rw [typeTwoTR_kernel])).trans (freed (typeTwoTR skb sdf s).kernel)
    · cases ran
      exact freed _
  split at ran
  · split at ran
    · obtain ⟨u,handled,rfl⟩ := map_eq_some_iff.mp ran
      exact (sendTF_adds heard handled).trans (freed u.kernel)
    · cases ran
      exact freed _
  split at ran
  · split at ran
    · cases ran
      exact freed s.kernel
    · cases ran
      exact freed _
  · cases ran
    exact freed _

theorem trRpt_told (headed : Headed rpt addr type) (info : TrInfo) :
    (trRpt rpt info).byte 14 = type.code ∧ getRcv (trRpt rpt info) 17 = info.rcvNum := by
  have rssi := headed.written (store_writes rpt (etherHeadLen + 1) info.rssi) (by decide)
  have batt := rssi.written (store_writes _ (etherHeadLen + 2) info.batt) (by decide)
  have counters := batt.written (putRcv_counters _ (etherHeadLen + 3) info.rcvNum).2 (by decide)
  exact ⟨counters.kind,getRcv_putRcv _ _ _⟩

theorem sendTrRpt_adds (room : Bool) (info : TrInfo) (type : TrType) (kernel : Kernel)
    (told : ∀ rpt, rpt.byte 14 = type.code → getRcv rpt 17 = info.rcvNum → Told heard (.sent rpt rpt.dev)) :
    Adds heard kernel (sendTrRpt room info type kernel) := by
  unfold sendTrRpt
  rcases alloc_cases room info.dev info.addr info.dev.devAddr trSize type kernel with ⟨_,failed⟩ | ⟨_,made,_,headed⟩
  · rw [failed]
    exact Adds.refl heard kernel
  · rw [made]
    have carried := trRpt_told headed info
    exact Adds.record (told _ carried.1 carried.2) rfl

theorem tf_adds (kind : type = .typeOneTR ∧ tf = .typeOneTF ∨ type = .typeTwoTR ∧ tf = .typeTwoTF)
    (counts : ∀ info, TrType.record type s = some info → Counts tf heard info) (ran : tlRxTfTimerFunc type room s = some t) :
    Adds heard s.kernel t.kernel := by
  obtain ⟨info,_,_,kernel,known,sent,rfl⟩ := tf_cases (kind.imp And.left And.left) ran
  have counted := counts info known
  have adds : Adds heard s.kernel kernel := by
    rcases sent with rfl | rfl
    · exact Adds.refl heard _
    · apply sendTrRpt_adds
      intro rpt headed reads
      rcases kind with ⟨rfl,rfl⟩ | ⟨rfl,rfl⟩
      · exact .typeOneTR headed counted reads rpt.dev
      · exact .typeTwoTR headed counted reads rpt.dev
  unfold TrType.timed
  split <;> exact adds

theorem nbrRpt_told (headed : Headed blank addr .nbrRPT) (sdf : TrInfo) (list : List TrInfo)
    (neighbours : ∀ info ∈ list, Neighbour heard info) (dev : NetDevice) : Told heard (.sent (nbrRpt blank sdf list) dev) := by
  have total := headed.written (putU32_writes blank (etherHeadLen + 1) sdf.totalNum) (by decide)
  have number := total.written (store_writes _ (etherHeadLen + 5) (UInt8.ofNat list.length)) (by decide)
  obtain ⟨front,holds⟩ := putNbrs_holds
    ((putU32 blank (etherHeadLen + 1) sdf.totalNum).store (etherHeadLen + 5) (UInt8.ofNat list.length)) 0 list
  apply Told.nbrRPT list
  · exact (front 14 (by decide)).trans number.kind
  · exact (front 19 (by decide)).trans (Skb.byte_store_same _ _ _)
  · exact neighbours
  · intro j inside
    have placed := holds j inside
    rw [Nat.zero_add] at placed
    exact placed

theorem tr2_adds (room : Bool) (neighbours : ∀ info ∈ s.tr2List, Neighbour heard info) :
    Adds heard s.kernel (tlRxTr2TimerFunc room s).kernel := by
  unfold tlRxTr2TimerFunc
  split
  · exact Adds.refl heard _
  · exact Adds.refl heard _
  · rename_i info rest sdf list _
    rcases alloc_cases room info.dev sdf.addr info.dev.devAddr (rptSize (info :: rest).length) .nbrRPT s.kernel with
      ⟨_,failed⟩ | ⟨_,made,_,headed⟩
    · rw [failed]
      exact Adds.refl heard _
    · rw [made]
      rw [list] at neighbours
      exact Adds.record (nbrRpt_told headed sdf (info :: rest) neighbours _) rfl

theorem step_adds (current : Current round s) (ran : step room e s = some t) : Adds round.frames s.kernel t.kernel := by
  cases e with
  | frame =>
    have received := receive_adds round.frames ran
    exact received
  | tf1Expires => exact tf_adds (s := {s with tlRxTf1Timer := false}) (.inl ⟨rfl,rfl⟩) current.one ran
  | tf2Expires => exact tf_adds (s := {s with tlRxTf2Timer := false}) (.inr ⟨rfl,rfl⟩) current.two ran
  | tr2Expires =>
    cases ran
    exact tr2_adds (s := {s with tlRxTr2Timer := false}) (room 0) current.neighbours
  | mcsExpires => exact mcs_adds (s := {s with tl2hopMcsSendTimer := false}) round.frames ran

theorem initial_current (random : Nat → UInt8) : Current ⟨none,[]⟩ (initial random) := by
  constructor
  · intro there
    cases there
  · exact fun _ => rfl
  · simp [initial]
  · simp [initial]
  · simp [initial]
  · simp [initial]

theorem rounds_current (reached : Rounds random Round.Resets round s) : Current round s := by
  induction reached with
  | start => exact initial_current random
  | step prior occurs resets ran ih => exact step_current ih resets ran

theorem round_reset (reached : Rounds random Round.Resets round s) :
    Current round s ∧ ∀ room e t, e.Occurs s → step room e s = some t →
      (round.begins e = true → (Discarded t ↔ Resettable s)) ∧ Adds round.frames s.kernel t.kernel := by
  have current := rounds_current reached
  exact ⟨current,fun room e t _ ran => ⟨fun begins => step_discards current begins ran,step_adds current ran⟩⟩

namespace RoundSample
open TlRx.Sample TimersSample

def again : Skb := frame source [1,0,0,0,5,0,0,0,1,0,0,0,8,0]
def reset : State := (step room (.frame again) heard).getD heard
def counted : State := (step room (.frame two) both).getD both
def kept : State := (step room (.frame again) counted).getD counted
def waited : State := (step room .tf2Expires kept).getD kept
def record : TrInfo := ⟨2,source,dev,5,#v[2,0,0,0,0,0,0,0],0,0,false,false,[]⟩

end RoundSample

theorem round_reset_sample : Discarded RoundSample.reset := by
  have heard : Rounds (fun _ => 0) Round.Resets _ TimersSample.heard :=
    .step (e := .frame TimersSample.one) .start trivial (fun _ => ⟨rfl,.inr ⟨rfl,rfl,rfl,rfl,rfl,rfl⟩⟩)
      (show step Sample.room _ TimersSample.start = some TimersSample.heard from rfl)
  have next := (round_reset heard).2 Sample.room (.frame RoundSample.again) RoundSample.reset trivial rfl
  exact (next.1 rfl).mpr ⟨rfl,.inl rfl⟩

theorem tf2_waits (known : s.tf2Info = some info) (busy : s.tf2PrevRcvNum < getTotRcv info) :
    step Sample.room .tf2Expires s = some {s with tf2PrevRcvNum := getTotRcv info,tlRxTf2Timer := true} := by
  simp only [step,tlRxTfTimerFunc,known,busy,if_true]

theorem tf2_reports (known : s.tf2Info = some info) (idle : ¬s.tf2PrevRcvNum < getTotRcv info) :
    step Sample.room .tf2Expires s =
      some {s with tlRxTf2Timer := false,kernel := sendTrRpt true info .typeTwoTR s.kernel} := by
  simp only [step,tlRxTfTimerFunc,known,idle,if_false]
  rfl

theorem report_late (kernel : Kernel) (counted : firstRcv info.rcvNum ≠ 0) :
    ¬Adds [RoundSample.again] kernel (sendTrRpt true info .typeTwoTR kernel) := by
  rintro ⟨new,log,told⟩
  unfold sendTrRpt at log
  rcases alloc_cases true info.dev info.addr info.dev.devAddr trSize .typeTwoTR kernel with ⟨full,_⟩ | ⟨rpt,made,_,headed⟩
  · exact absurd full (by decide)
  rw [made] at log
  have carried := trRpt_told headed info
  have only : new = [.sent (trRpt rpt info) (trRpt rpt info).dev] := (List.append_cancel_left log).symm
  have report := told (.sent (trRpt rpt info) (trRpt rpt info).dev) (by rw [only]; exact List.mem_singleton_self _)
  cases report with
  | training kind | typeOneTR kind | nbrRPT _ kind => exact absurd (carried.1.symm.trans kind) (by decide)
  | typeTwoTR _ counts reads =>
    obtain ⟨frames,part,alike,number⟩ := counts
    have none : frames = [] := by
      apply List.eq_nil_iff_forall_not_mem.mpr
      intro _ member
      have same := List.mem_singleton.mp (part.subset member)
      subst same
      exact absurd (alike _ member).1 (by decide)
    have zero := number 0 (by decide)
    rw [none,← reads,carried.2] at zero
    exact counted zero

-- Without a record of the first type nothing is reset, and old frames are reported.
theorem round_kept : ∃ round s t, Rounds (fun _ => 0) (fun _ _ _ => True) round s ∧ round.begins (.frame RoundSample.again) = true ∧
    step Sample.room (.frame RoundSample.again) s = some t ∧ ¬Discarded t ∧
    ∃ u v, Rounds (fun _ => 0) (fun _ _ _ => True) ⟨some 8,[RoundSample.again]⟩ u ∧ u.tlRxTf2Timer = true ∧
      step Sample.room .tf2Expires u = some v ∧ ¬Adds [RoundSample.again] u.kernel v.kernel := by
  have heard : Rounds (fun _ => 0) (fun _ _ _ => True) _ TimersSample.heard :=
    .step (e := .frame TimersSample.one) .start trivial trivial (show step Sample.room _ _ = some TimersSample.heard from rfl)
  have both : Rounds (fun _ => 0) (fun _ _ _ => True) _ TimersSample.both :=
    .step (e := .frame TimersSample.two) heard trivial trivial (show step Sample.room _ _ = some TimersSample.both from rfl)
  have counted : Rounds (fun _ => 0) (fun _ _ _ => True) _ RoundSample.counted :=
    .step (e := .frame TimersSample.two) both trivial trivial (show step Sample.room _ _ = some RoundSample.counted from rfl)
  have again : step Sample.room (.frame RoundSample.again) RoundSample.counted = some RoundSample.kept := rfl
  have kept : Rounds (fun _ => 0) (fun _ _ _ => True) _ RoundSample.kept :=
    .step (e := .frame RoundSample.again) counted trivial trivial again
  have first : RoundSample.kept.tf2Info = some RoundSample.record := rfl
  have waits := tf2_waits first (by decide)
  have state : RoundSample.waited =
      {RoundSample.kept with tf2PrevRcvNum := getTotRcv RoundSample.record,tlRxTf2Timer := true} := by
    rw [RoundSample.waited,waits]
    rfl
  have expires : step Sample.room .tf2Expires RoundSample.kept = some RoundSample.waited := waits.trans (congrArg some state.symm)
  have waited : Rounds (fun _ => 0) (fun _ _ _ => True) _ RoundSample.waited := .step (e := .tf2Expires) kept rfl trivial expires
  have stays : RoundSample.kept.tf2Info.isSome = true := rfl
  have known : RoundSample.waited.tf2Info = some RoundSample.record := by
    rw [state]
    exact first
  have idle : ¬RoundSample.waited.tf2PrevRcvNum < getTotRcv RoundSample.record := by
    rw [state]
    exact UInt32.lt_irrefl _
  have pending : RoundSample.waited.tlRxTf2Timer = true := congrArg State.tlRxTf2Timer state
  refine ⟨_,RoundSample.counted,RoundSample.kept,counted,rfl,again,?_,RoundSample.waited,_,waited,pending,tf2_reports known idle,?_⟩
  · intro gone
    rw [gone.two] at stays
    cases stays
  · exact report_late RoundSample.waited.kernel (by decide)

end Mac80211.TlRound

import Mac80211.PowerSave

namespace Mac80211.PowerSave
open Ieee80211

-- In order. callDriver: the null frame is announced to the driver as well.
inductive Output where
  | nullResponse (tid : Int) (callDriver : Bool)
  | allowBufferedFrames (tids : UInt16) (numFrames : Nat) (moreData : Bool)
  | addPending (replies : List Reply)
  | releaseBufferedFrames (tids : UInt16) (numFrames : Nat) (moreData : Bool)
  | recalcTim

structure Response where
  sta : StaInfo
  released : Nat
  outputs : List Output

def fls (x : UInt16) : Int := if x = 0 then 0 else x.toNat.log2 + 1

def findHighestPrioTid (tids : UInt16) : Int :=
  if tids &&& 0xf8 != 0 then fls tids - 1
  else if tids &&& 1 != 0 then 0
  else fls tids - 1

def bit (tid : Nat) : UInt16 := UInt16.ofNat (2 ^ tid)

def firstUnignored (ignoredAcs : UInt8) : Nat := ((List.range 8).find? fun i => !ignoredAcs.toNat.testBit i).getD 8

def StaInfo.release (sta : StaInfo) (nFrames : Nat) (ignoredAcs : UInt8) (pspoll : Bool) : Release :=
  releaseAcs (sta.driverBufferedTids ||| sta.txqBufferedTids) ignoredAcs pspoll Ac.all
    ⟨nFrames,0,[],sta.txFiltered,sta.psTxBuf,0,false⟩

-- Only one for a poll.
def Release.tids (r : Release) (pspoll : Bool) : UInt16 :=
  if pspoll && r.driverTids &&& (r.driverTids - 1) != 0 then bit (findHighestPrioTid r.driverTids).toNat else r.driverTids

-- priority is skb->priority; txqs: the queues after the driver has released frames.
def StaInfo.deliverResponse (priority : Skb → Nat) (txqs : Option (Nat → Nat)) (sta : StaInfo) (nFrames : Nat) (ignoredAcs : UInt8)
    (pspoll : Bool) : Response :=
  let r := sta.release nFrames ignoredAcs pspoll
  let outputs :=
    if r.frames.isEmpty && r.driverTids == 0 then [Output.nullResponse (7 - 2 * firstUnignored ignoredAcs) true]
    else if r.driverTids == 0 then
      let replies := respondFrames r.moreData (!pspoll) r.frames
      let tids := r.frames.foldl (fun tids skb => tids ||| bit (priority skb)) 0
      let num := r.frames.length + if replies.2 then 1 else 0
      [.allowBufferedFrames tids num r.moreData,.addPending replies.1] ++
        (if replies.2 then [.nullResponse (findHighestPrioTid tids) false] else []) ++ [.recalcTim]
    else
      let tids := sta.txqBufferedTids &&& r.tids pspoll
      [.releaseBufferedFrames (r.tids pspoll) r.nFrames r.moreData] ++
        match txqs with
        | none => []
        | some len => if (List.range 16).any fun tid => tids &&& bit tid != 0 && len tid == 0 then [.recalcTim] else []
  ⟨{sta with sp := true,txFiltered := r.filtered,psTxBuf := r.buffered},r.released,outputs⟩

def Output.replies : Output → List Reply
  | .addPending replies => replies
  | _ => []

def Response.replies (out : Response) : List Reply := out.outputs.flatMap Output.replies

-- The highest priority first, and what was filtered before what was buffered.
def considered (ignoredAcs : UInt8) (acs : List Ac) : List Ac := acs.filter fun ac => ignoredAcs &&& ac.bit == 0
def heldFor (acs : List Ac) (filtered buffered : Acs Skb) : List Skb := acs.flatMap fun ac => filtered.get ac ++ buffered.get ac

def StaInfo.software (sta : StaInfo) (ignoredAcs : UInt8) : List Skb := heldFor (considered ignoredAcs Ac.all) sta.txFiltered sta.psTxBuf

def StaInfo.elsewhere (sta : StaInfo) (ignoredAcs : UInt8) : Bool :=
  (considered ignoredAcs Ac.all).any fun ac => (sta.driverBufferedTids ||| sta.txqBufferedTids) &&& ac.tids != 0

def Reply.moreData (reply : Reply) : Bool := reply.skb.frameControl &&& fctlMoreData != 0

section queues

@[simp]
theorem get_set_self (q : Acs α) (ac : Ac) (frames : List α) : (q.set ac frames).get ac = frames := by cases ac <;> rfl

theorem get_set_other (q : Acs α) (frames : List α) (apart : other ≠ ac) : (q.set ac frames).get other = q.get other := by
  cases ac <;> cases other <;> first | rfl | exact absurd rfl apart

end queues

section loop
variable {r : Release}

theorem takeFrames_order (n : Nat) (filtered buffered : List Skb) :
    (takeFrames n filtered buffered).frames ++ ((takeFrames n filtered buffered).filtered ++ (takeFrames n filtered buffered).buffered) =
        filtered ++ buffered ∧
      (takeFrames n filtered buffered).frames.length ≤ n := by
  induction n,filtered,buffered using takeFrames.induct with
  | case1 => exact ⟨rfl,Nat.le_refl 0⟩
  | case2 n skb filtered buffered ih | case3 n skb buffered ih => exact ⟨congrArg (skb :: ·) ih.1,Nat.succ_le_succ ih.2⟩
  | case4 => exact ⟨rfl,Nat.zero_le _⟩

theorem take_spec (r : Release) (ac : Ac) : ∃ taken,(r.take ac).frames = r.frames ++ taken ∧
    taken ++ ((r.take ac).filtered.get ac ++ (r.take ac).buffered.get ac) = r.filtered.get ac ++ r.buffered.get ac ∧
    (r.take ac).frames.length + (r.take ac).nFrames = r.frames.length + r.nFrames ∧
    (∀ other, other ≠ ac → (r.take ac).filtered.get other = r.filtered.get other ∧ (r.take ac).buffered.get other = r.buffered.get other) ∧
    (r.take ac).driverTids = r.driverTids ∧ (r.take ac).moreData = r.moreData := by
  obtain ⟨order,_⟩ := takeFrames_order r.nFrames (r.filtered.get ac) (r.buffered.get ac)
  refine ⟨(takeFrames r.nFrames (r.filtered.get ac) (r.buffered.get ac)).frames,rfl,?_,?_,?_,rfl,rfl⟩
  · unfold Release.take
    rw [get_set_self,get_set_self]
    exact order
  · unfold Release.take
    dsimp only
    rw [List.length_append]
    omega
  · intro _ apart
    exact ⟨get_set_other _ _ apart,get_set_other _ _ apart⟩

def Release.look (r : Release) (tids : UInt16) (ac : Ac) : Release :=
  {r with driverTids := if r.frames.isEmpty then r.driverTids ||| tids &&& ac.tids else r.driverTids}

def Release.visit (r : Release) (tids : UInt16) (ac : Ac) : Release :=
  if (r.look tids ac).driverTids != 0 then r.look tids ac else (r.look tids ac).take ac

theorem releaseAcs_cons (tids : UInt16) (ignoredAcs : UInt8) (pspoll : Bool) (ac : Ac) (rest : List Ac) (r : Release) :
    releaseAcs tids ignoredAcs pspoll (ac :: rest) r =
      if ignoredAcs &&& ac.bit != 0 then releaseAcs tids ignoredAcs pspoll rest r
      else if (r.look tids ac).driverTids != 0 && pspoll &&
          (r.look tids ac).driverTids &&& ((r.look tids ac).driverTids - 1) != 0 then {r.look tids ac with moreData := true}
      else if !((r.visit tids ac).filtered.get ac).isEmpty || !((r.visit tids ac).buffered.get ac).isEmpty then
        {r.visit tids ac with moreData := true}
      else releaseAcs tids ignoredAcs pspoll rest (r.visit tids ac) := rfl

def Release.Either (r : Release) : Prop := r.frames ≠ [] → r.driverTids = 0

theorem look_either (either : r.Either) (tids : UInt16) (ac : Ac) : (r.look tids ac).Either := by
  intro released
  have before : r.frames ≠ [] := released
  have kept : (r.look tids ac).driverTids = r.driverTids := if_neg (by simpa using before)
  rw [kept]
  exact either before

theorem visit_spec (either : r.Either) (tids : UInt16) (ac : Ac) : ∃ taken,(r.visit tids ac).frames = r.frames ++ taken ∧
    taken ++ ((r.visit tids ac).filtered.get ac ++ (r.visit tids ac).buffered.get ac) = r.filtered.get ac ++ r.buffered.get ac ∧
    (r.visit tids ac).frames.length + (r.visit tids ac).nFrames = r.frames.length + r.nFrames ∧
    (∀ other, other ≠ ac → (r.visit tids ac).filtered.get other = r.filtered.get other ∧
      (r.visit tids ac).buffered.get other = r.buffered.get other) ∧
    (r.visit tids ac).moreData = r.moreData ∧ (r.visit tids ac).Either := by
  unfold Release.visit
  split
  · exact ⟨[],(List.append_nil _).symm,rfl,rfl,fun other apart => ⟨rfl,rfl⟩,rfl,look_either either tids ac⟩
  · rename_i none
    obtain ⟨taken,frames,order,count,others,driver,more⟩ := take_spec (r.look tids ac) ac
    refine ⟨taken,frames,order,count,others,more,?_⟩
    intro _
    rw [driver]
    simpa using none

theorem heldFor_cons (ac : Ac) (acs : List Ac) (filtered buffered : Acs Skb) :
    heldFor (ac :: acs) filtered buffered = filtered.get ac ++ buffered.get ac ++ heldFor acs filtered buffered := List.flatMap_cons

theorem heldFor_congr
    (same : ∀ ac ∈ acs, filtered'.get ac = filtered.get ac ∧ buffered'.get ac = buffered.get ac) :
    heldFor acs filtered' buffered' = heldFor acs filtered buffered := by
  apply List.flatMap_congr
  intro ac member
  rw [(same ac member).1,(same ac member).2]

structure Walked (acs : List Ac) (r r' : Release) : Prop where
  order : ∃ taken, r'.frames = r.frames ++ taken ∧ taken ++ heldFor acs r'.filtered r'.buffered = heldFor acs r.filtered r.buffered
  count : r'.frames.length + r'.nFrames = r.frames.length + r.nFrames
  others : ∀ ac, ac ∉ acs → r'.filtered.get ac = r.filtered.get ac ∧ r'.buffered.get ac = r.buffered.get ac
  more : r'.frames ≠ [] → r'.driverTids = 0 ∧ (r'.moreData = true ↔ heldFor acs r'.filtered r'.buffered ≠ [])

theorem releaseAcs_walked (tids : UInt16) (ignoredAcs : UInt8) (pspoll : Bool) (acs : List Ac) : ∀ (r : Release), acs.Nodup → r.Either →
    r.moreData = false → Walked (considered ignoredAcs acs) r (releaseAcs tids ignoredAcs pspoll acs r) := by
  induction acs with
  | nil =>
    intro r _ either unset
    refine ⟨⟨[],(List.append_nil _).symm,rfl⟩,rfl,fun ac _ => ⟨rfl,rfl⟩,fun released => ⟨either released,?_⟩⟩
    have unmarked : r.moreData ≠ true := by rw [unset]; decide
    exact ⟨fun more => absurd more unmarked,fun left => absurd rfl left⟩
  | cons ac rest ih =>
    intro r apart either unset
    obtain ⟨fresh,apart⟩ := List.nodup_cons.mp apart
    rw [releaseAcs_cons]
    split
    · rename_i ignored
      have skipped : considered ignoredAcs (ac :: rest) = considered ignoredAcs rest := List.filter_cons_of_neg (by simpa using ignored)
      rw [skipped]
      exact ih r apart either unset
    rename_i wanted
    have here : considered ignoredAcs (ac :: rest) = ac :: considered ignoredAcs rest := List.filter_cons_of_pos (by simpa using wanted)
    have later : ac ∉ considered ignoredAcs rest := fun member => fresh (List.mem_filter.mp member).1
    rw [here]
    split
    · rename_i several
      refine ⟨⟨[],(List.append_nil _).symm,rfl⟩,rfl,fun ac _ => ⟨rfl,rfl⟩,fun released => ?_⟩
      have zero : (r.look tids ac).driverTids = 0 := look_either either tids ac released
      rw [zero] at several
      cases several
    obtain ⟨taken,frames,order,count,others,more,eitherNext⟩ := visit_spec either tids ac
    have restHeld : heldFor (considered ignoredAcs rest) (r.visit tids ac).filtered (r.visit tids ac).buffered =
        heldFor (considered ignoredAcs rest) r.filtered r.buffered :=
      heldFor_congr fun other member => others other fun same => later (same ▸ member)
    split
    · rename_i left
      refine ⟨⟨taken,frames,?_⟩,count,?_,fun released => ⟨eitherNext released,fun _ => ?_,fun _ => rfl⟩⟩
      · rw [heldFor_cons,heldFor_cons,restHeld,← List.append_assoc,order]
      · intro other outside
        exact others other fun same => outside (same ▸ List.mem_cons_self)
      · rw [heldFor_cons]
        intro empty
        have both := List.append_eq_nil_iff.mp (List.append_eq_nil_iff.mp empty).1
        rw [both.1,both.2] at left
        cases left
    rename_i drained
    have empty : (r.visit tids ac).filtered.get ac = [] ∧ (r.visit tids ac).buffered.get ac = [] := by simpa using drained
    have next := ih (r.visit tids ac) apart eitherNext (more.trans unset)
    obtain ⟨takenRest,framesRest,orderRest⟩ := next.order
    have gone := next.others ac later
    have held : heldFor (ac :: considered ignoredAcs rest) (releaseAcs tids ignoredAcs pspoll rest (r.visit tids ac)).filtered
        (releaseAcs tids ignoredAcs pspoll rest (r.visit tids ac)).buffered =
        heldFor (considered ignoredAcs rest) (releaseAcs tids ignoredAcs pspoll rest (r.visit tids ac)).filtered
          (releaseAcs tids ignoredAcs pspoll rest (r.visit tids ac)).buffered := by
      rw [heldFor_cons,gone.1,gone.2,empty.1,empty.2]
      rfl
    refine ⟨⟨taken ++ takenRest,?_,?_⟩,next.count.trans count,?_,?_⟩
    · rw [framesRest,frames,List.append_assoc]
    · rw [held,List.append_assoc,orderRest,restHeld,heldFor_cons,← order,empty.1,empty.2,List.append_nil,List.append_nil]
    · intro other outside
      have notHere : other ≠ ac := fun same => outside (same ▸ List.mem_cons_self)
      have notLater : other ∉ considered ignoredAcs rest := fun member => outside (List.mem_cons_of_mem ac member)
      have first := others other notHere
      have second := next.others other notLater
      exact ⟨second.1.trans first.1,second.2.trans first.2⟩
    · rw [held]
      exact next.more

end loop

section bits

theorem more_set (fc : UInt16) : (fc ||| fctlMoreData) &&& fctlMoreData ≠ 0 := by
  have whole : (fc ||| fctlMoreData) &&& fctlMoreData = fctlMoreData := by
    apply UInt16.toBitVec_inj.mp
    ext i
    simp only [UInt16.toBitVec_and,UInt16.toBitVec_or,BitVec.getElem_and,BitVec.getElem_or]
    exact Bool.and_eq_right_iff_imp.mpr fun set => by rw [set,Bool.or_true]
  rw [whole]
  decide

theorem more_unset (fc : UInt16) : fc &&& ~~~fctlMoreData &&& fctlMoreData = 0 := by
  apply UInt16.toBitVec_inj.mp
  ext i
  simp

theorem mask_more (fc : UInt16) (apart : fctlMoreData &&& mask = 0) : (fc ||| fctlMoreData) &&& mask = fc &&& mask := by
  apply UInt16.toBitVec_inj.mp
  have disjoint : fctlMoreData.toBitVec &&& mask.toBitVec = 0#16 := congrArg UInt16.toBitVec apart
  rw [UInt16.toBitVec_and,UInt16.toBitVec_or,BitVec.and_or_distrib_right,disjoint,BitVec.or_zero]
  rfl

theorem respond_set (skb : Skb) : (skb.respond true).frameControl &&& fctlMoreData ≠ 0 := more_set skb.frameControl

theorem respond_unset (skb : Skb) : (skb.respond false).frameControl &&& fctlMoreData = 0 := more_unset skb.frameControl

def plainFrame (fc : UInt16) : Bool := !(isDataQos fc || isQosNullfunc fc)

theorem plainFrame_more (fc : UInt16) : plainFrame (fc ||| fctlMoreData) = plainFrame fc := by
  unfold plainFrame isDataQos isQosNullfunc
  rw [mask_more fc (by decide),mask_more fc (by decide)]

theorem more_again (fc : UInt16) : fc &&& ~~~fctlMoreData ||| fctlMoreData = fc ||| fctlMoreData := by
  apply UInt16.toBitVec_inj.mp
  ext i
  simp only [UInt16.toBitVec_and,UInt16.toBitVec_or,UInt16.toBitVec_not,BitVec.getElem_and,BitVec.getElem_or,BitVec.getElem_not]
  cases fctlMoreData.toBitVec[i] <;> simp

theorem respond_again (skb : Skb) (more : Bool) :
    {skb.respond more with frameControl := (skb.respond more).frameControl ||| fctlMoreData} = skb.respond true := by
  cases more with
  | true =>
    have twice : skb.frameControl ||| fctlMoreData ||| fctlMoreData = skb.frameControl ||| fctlMoreData := by
      rw [UInt16.or_assoc,UInt16.or_self]
    exact congrArg (fun fc => {skb with noPsBuffer := true,frameControl := fc}) twice
  | false => exact congrArg (fun fc => {skb with noPsBuffer := true,frameControl := fc}) (more_again skb.frameControl)

end bits

section replies

theorem respondFrames_next (moreData uapsd : Bool) (skb : Skb) (later : rest ≠ []) : respondFrames moreData uapsd (skb :: rest) =
    (⟨skb.respond true,false,false⟩ :: (respondFrames moreData uapsd rest).1,(respondFrames moreData uapsd rest).2) := by
  have follows : (!rest.isEmpty) = true := by simpa using later
  rw [respondFrames,follows]
  simp

theorem respond_marked (moreData : Bool) (skb : Skb) : (skb.respond moreData).frameControl &&& fctlMoreData ≠ 0 ↔ moreData = true := by
  cases moreData with
  | true => exact ⟨fun _ => rfl,fun _ => respond_set skb⟩
  | false => exact ⟨fun set => absurd (respond_unset skb) set,nofun⟩

theorem respondFrames_last (moreData uapsd : Bool) (skb : Skb) : ∃ reply needNull, respondFrames moreData uapsd [skb] = ([reply],needNull) ∧
    (∃ more, reply.skb = skb.respond more) ∧ (moreData = true → reply.moreData = true) ∧
    (reply.moreData = true → moreData = true ∨ uapsd = true ∧ plainFrame reply.skb.frameControl = true ∧ needNull = true) := by
  have marked := respond_marked moreData skb
  cases uapsd with
  | false =>
    refine ⟨⟨skb.respond moreData,false,true⟩,false,by simp [respondFrames],⟨moreData,rfl⟩,?_,?_⟩
    · exact fun more => bne_iff_ne.mpr (marked.mpr more)
    · exact fun set => .inl (marked.mp (bne_iff_ne.mp set))
  | true =>
    have single : respondFrames moreData true [skb] =
        if isDataQos (skb.respond moreData).frameControl || isQosNullfunc (skb.respond moreData).frameControl then
          ([⟨skb.respond moreData,true,true⟩],false)
        else ([⟨{skb.respond moreData with frameControl := (skb.respond moreData).frameControl ||| fctlMoreData},false,false⟩],true) := by
      rw [respondFrames,List.isEmpty_nil,Bool.not_true,Bool.or_false]
      rfl
    by_cases qos : (isDataQos (skb.respond moreData).frameControl || isQosNullfunc (skb.respond moreData).frameControl) = true
    · refine ⟨⟨skb.respond moreData,true,true⟩,false,by rw [single,if_pos qos],⟨moreData,rfl⟩,?_,?_⟩
      · exact fun more => bne_iff_ne.mpr (marked.mpr more)
      · exact fun set => .inl (marked.mp (bne_iff_ne.mp set))
    · have again := respond_again skb moreData
      refine ⟨⟨_,false,false⟩,true,by rw [single,if_neg qos],⟨true,again⟩,?_,?_⟩
      · exact fun _ => bne_iff_ne.mpr (more_set _)
      · refine fun _ => .inr ⟨rfl,?_,rfl⟩
        rw [plainFrame_more]
        simpa [plainFrame] using qos

structure Responded (moreData uapsd : Bool) (frames : List Skb) (replies : List Reply) (needNull : Bool) : Prop where
  same : List.Forall₂ (fun reply skb => ∃ more, reply.skb = skb.respond more) replies frames
  followed : ∀ k reply, replies[k]? = some reply → k + 1 < replies.length → reply.moreData = true
  more : moreData = true → ∀ reply ∈ replies, reply.moreData = true
  last : ∀ reply, replies.getLast? = some reply → reply.moreData = true →
    moreData = true ∨ uapsd = true ∧ plainFrame reply.skb.frameControl = true ∧ needNull = true

theorem respondFrames_spec (moreData uapsd : Bool) (frames : List Skb) :
    Responded moreData uapsd frames (respondFrames moreData uapsd frames).1 (respondFrames moreData uapsd frames).2 := by
  induction frames with
  | nil => exact ⟨.nil,nofun,nofun,nofun⟩
  | cons skb rest ih =>
    by_cases final : rest = []
    · subst final
      obtain ⟨reply,_,responded,same,more,last⟩ := respondFrames_last moreData uapsd skb
      rw [responded]
      refine ⟨.cons same .nil,?_,?_,?_⟩
      · intro k other _ inside
        exact absurd inside (by simp)
      · intro set _ member
        cases List.mem_singleton.mp member
        exact more set
      · intro _ found
        cases found
        exact last
    rw [respondFrames_next moreData uapsd skb final]
    have first : (⟨skb.respond true,false,false⟩ : Reply).moreData = true := bne_iff_ne.mpr (respond_set skb)
    refine ⟨.cons ⟨true,rfl⟩ ih.same,?_,?_,?_⟩
    · intro k reply found inside
      cases k with
      | zero =>
        cases found
        exact first
      | succ k => exact ih.followed k reply found (Nat.lt_of_succ_lt_succ inside)
    · intro set reply member
      rcases List.mem_cons.mp member with rfl | later
      · exact first
      · exact ih.more set reply later
    · intro reply found
      have later : (respondFrames moreData uapsd rest).1 ≠ [] := by
        intro empty
        have lengths := ih.same.length_eq
        rw [empty] at lengths
        exact final (List.eq_nil_of_length_eq_zero lengths.symm)
      rw [List.getLast?_cons_of_ne_nil later] at found
      exact ih.last reply found

end replies

section response

-- The first frames held in software, at most so many; all have the bit when software holds more, the last
-- one only when there is more or a null frame follows.
structure Served (sta : StaInfo) (nFrames : Nat) (ignoredAcs : UInt8) (pspoll : Bool) (out : Response) : Prop where
  bounded : out.replies.length ≤ nFrames
  order : ∃ frames, frames ++ out.sta.software ignoredAcs = sta.software ignoredAcs ∧
    List.Forall₂ (fun reply skb => ∃ more, reply.skb = skb.respond more) out.replies frames
  skipped : ∀ ac, ac ∉ considered ignoredAcs Ac.all →
    out.sta.txFiltered.get ac = sta.txFiltered.get ac ∧ out.sta.psTxBuf.get ac = sta.psTxBuf.get ac
  followed : ∀ k reply, out.replies[k]? = some reply → k + 1 < out.replies.length → reply.moreData = true
  remaining : out.sta.software ignoredAcs ≠ [] → ∀ reply ∈ out.replies, reply.moreData = true
  last : ∀ reply, out.replies.getLast? = some reply → reply.moreData = true →
    out.sta.software ignoredAcs ≠ [] ∨ out.sta.elsewhere ignoredAcs = true ∨
      pspoll = false ∧ plainFrame reply.skb.frameControl = true ∧ ∃ tid, Output.nullResponse tid false ∈ out.outputs

theorem release_walked (sta : StaInfo) (nFrames : Nat) (ignoredAcs : UInt8) (pspoll : Bool) :
    Walked (considered ignoredAcs Ac.all) ⟨nFrames,0,[],sta.txFiltered,sta.psTxBuf,0,false⟩ (sta.release nFrames ignoredAcs pspoll) :=
  releaseAcs_walked _ ignoredAcs pspoll Ac.all _ (by decide) (fun released => absurd rfl released) rfl

variable (priority : Skb → Nat) (txqs : Option (Nat → Nat))

section
variable (sta : StaInfo) (nFrames : Nat) (ignoredAcs : UInt8) (pspoll : Bool)

theorem deliver_replies :
    (sta.deliverResponse priority txqs nFrames ignoredAcs pspoll).replies =
        (respondFrames (sta.release nFrames ignoredAcs pspoll).moreData (!pspoll) (sta.release nFrames ignoredAcs pspoll).frames).1 ∧
      ((respondFrames (sta.release nFrames ignoredAcs pspoll).moreData (!pspoll) (sta.release nFrames ignoredAcs pspoll).frames).2 = true →
        ∃ tid, Output.nullResponse tid false ∈ (sta.deliverResponse priority txqs nFrames ignoredAcs pspoll).outputs) := by
  have walked := release_walked sta nFrames ignoredAcs pspoll
  generalize released : sta.release nFrames ignoredAcs pspoll = r at walked ⊢
  unfold StaInfo.deliverResponse Response.replies
  rw [released]
  dsimp only
  split
  · rename_i idle
    have empty : r.frames = [] := by simpa using (Bool.and_eq_true_iff.mp idle).1
    rw [empty]
    exact ⟨rfl,nofun⟩
  split
  · constructor
    · split <;> simp [Output.replies]
    · intro needNull
      refine ⟨findHighestPrioTid (r.frames.foldl (fun tids skb => tids ||| bit (priority skb)) 0),?_⟩
      simp [needNull]
  rename_i driver
  have empty : r.frames = [] := by
    by_contra some
    exact driver (beq_iff_eq.mpr (walked.more some).1)
  rw [empty]
  refine ⟨?_,nofun⟩
  cases txqs with
  | none => rfl
  | some =>
    dsimp only
    split <;> rfl

-- What the model of the buffers keeps of it.
theorem deliverResponse_world (w : World) (i : Nat) : w.staPsDeliverResponse i sta nFrames ignoredAcs pspoll =
    {w.setSta i (sta.deliverResponse priority txqs nFrames ignoredAcs pspoll).sta with
      totalPsBuffered := w.totalPsBuffered - (sta.deliverResponse priority txqs nFrames ignoredAcs pspoll).released
      pending := w.pending ++ (sta.deliverResponse priority txqs nFrames ignoredAcs pspoll).replies.map Reply.skb} := by
  rw [(deliver_replies priority txqs sta nFrames ignoredAcs pspoll).1]
  rfl

theorem deliver_response_serves :
    Served sta nFrames ignoredAcs pspoll (sta.deliverResponse priority txqs nFrames ignoredAcs pspoll) := by
  have walked := release_walked sta nFrames ignoredAcs pspoll
  obtain ⟨replies,null⟩ := deliver_replies priority txqs sta nFrames ignoredAcs pspoll
  have responded := respondFrames_spec (sta.release nFrames ignoredAcs pspoll).moreData (!pspoll) (sta.release nFrames ignoredAcs pspoll).frames
  rw [← replies] at responded
  obtain ⟨taken,frames,order⟩ := walked.order
  have lengths := responded.same.length_eq
  refine ⟨?_,?_,walked.others,responded.followed,?_,?_⟩
  · have count : (sta.release nFrames ignoredAcs pspoll).frames.length + (sta.release nFrames ignoredAcs pspoll).nFrames = 0 + nFrames :=
      walked.count
    omega
  · rw [List.nil_append] at frames
    exact ⟨taken,order,frames ▸ responded.same⟩
  · intro left reply member
    have sent : (sta.release nFrames ignoredAcs pspoll).frames ≠ [] := by
      intro empty
      rw [empty] at lengths
      rw [List.eq_nil_of_length_eq_zero lengths] at member
      cases member
    exact responded.more ((walked.more sent).2.mpr left) reply member
  · intro reply found set
    have sent : (sta.release nFrames ignoredAcs pspoll).frames ≠ [] := by
      intro empty
      rw [empty] at lengths
      rw [List.eq_nil_of_length_eq_zero lengths] at found
      cases found
    rcases responded.last reply found set with more | ⟨uapsd,plain,needNull⟩
    · exact .inl ((walked.more sent).2.mp more)
    · exact .inr (.inr ⟨by simpa using uapsd,plain,null needNull⟩)

end

end response

def sampleHeld (fc driverTids : UInt16) : StaInfo where
  type := .ap
  ps := 0
  psSta := true
  psDriver := false
  psDeliver := false
  pspoll := false
  uapsd := false
  sp := false
  uapsdQueues := 15
  maxSp := 1
  driverBufferedTids := driverTids
  txqBufferedTids := 0
  listenInterval := 1
  beaconInt := 100
  psTxBuf := {Acs.empty with vo := [⟨0,fc,.vo,100,1000,false⟩]}
  txFiltered := .empty
  deliverWk := false
  dead := false
  phase := .listed
  asleep := true

def sampleResponse (fc driverTids : UInt16) (nFrames : Nat) (pspoll : Bool) : Response :=
  (sampleHeld fc driverTids).deliverResponse (fun _ => 7) none nFrames 0 pspoll

theorem bit_not_exact :
    (∃ reply, (sampleResponse 0x00a0 0 2 false).replies = [reply] ∧ reply.moreData = true ∧
      (sampleResponse 0x00a0 0 2 false).sta.software 0 = [] ∧ (sampleResponse 0x00a0 0 2 false).sta.elsewhere 0 = false) ∧
    ∃ reply, (sampleResponse 0x0288 0x10 1 true).replies = [reply] ∧ reply.moreData = false ∧
      (sampleResponse 0x0288 0x10 1 true).sta.elsewhere 0 = true := by
  refine ⟨⟨_,rfl,?_,?_,?_⟩,⟨_,rfl,?_,?_⟩⟩
  all_goals decide

end Mac80211.PowerSave

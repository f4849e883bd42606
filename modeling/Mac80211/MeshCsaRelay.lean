import Mac80211.MeshCsa

namespace Mac80211.MeshCsa

structure Received (frame : List UInt8) : Prop where
  long : baselen ≤ frame.length
  category : byteOf frame 24 = 0
  actionCode : byteOf frame 25 = 4

def meshIe (frame : List UInt8) : Option Nat := (parseElems (frame.drop baselen)).meshChanswParamsIe

structure LessTtl (frame sent : List UInt8) (e : Nat) : Prop where
  ttl : ttlOf sent e = ttlOf frame e - 1
  flags : byteOf sent (baselen + e + 1) = byteOf frame (baselen + e + 1) &&& ~~~initiator
  rest : ∀ j, 2 ≤ j → j < 6 → byteOf sent (baselen + e + j) = byteOf frame (baselen + e + j)

def Bounded (s : Sdata) (ifmsh : IfMesh) (frame : List UInt8) : Prop :=
  ∃ after copy, rxCsaFrame s ifmsh frame = some (after,copy) ∧
    ∀ sent, copy = some sent → ∃ e, meshIe frame = some e ∧ 2 ≤ (ttlOf frame e).toNat ∧ LessTtl frame sent e

def noted (ifmsh : IfMesh) (frame : List UInt8) (e : Nat) : IfMesh :=
  {ifmsh with chswTtl := ttlOf frame e - 1,preValue := preValueOf frame e}

structure Passes (s : Sdata) (ifmsh : IfMesh) (frame : List UInt8) (e : Nat) : Prop where
  new : ifmsh.preValue < preValueOf frame e
  taken : ∃ after, accept s (noted ifmsh frame e) frame (parseElems (frame.drop baselen)) = some (true,after)
  alloc : s.devAllocSkb = true
  ttl : ttlOf frame e ≠ 1

def Guarded (s : Sdata) (ifmsh : IfMesh) (frame : List UInt8) : Prop :=
  ∃ e, meshIe frame = some e ∧ (Passes s ifmsh frame e → ttlOf frame e ≠ 0 ∧ e = offsetTtl frame)

section bounded

theorem rx_absent (received : Received frame) (absent : meshIe frame = none) : rxCsaFrame s ifmsh frame = none := by
  unfold meshIe at absent
  unfold rxCsaFrame
  rw [load_inside (Nat.lt_of_lt_of_le (by decide) received.long),received.actionCode]
  simp [absent]

theorem rx_present (received : Received frame) (present : meshIe frame = some e) : rxCsaFrame s ifmsh frame =
    if ifmsh.preValue ≥ preValueOf frame e then some ({ifmsh with chswTtl := ttlOf frame e - 1},none)
    else (accept s (noted ifmsh frame e) frame (parseElems (frame.drop baselen))).bind fun out =>
      if out.1 && decide (ttlOf frame e - 1 ≠ 0) then (fwdCsaFrame s frame).map fun copy => (out.2,copy) else some (out.2,none) := by
  have inside := (parse_inside received.long).meshChanswParamsIe e present
  unfold meshIe at present
  unfold rxCsaFrame
  rw [load_inside (Nat.lt_of_lt_of_le (by decide) received.long),received.actionCode]
  simp only [Option.bind_eq_bind,Option.bind_some,ne_eq,not_true_eq_false,if_false,present,meshParams_inside inside]
  rfl

theorem ttl_less (ttl : UInt8) (live : 0 < ttl.toNat) : (ttl - 1).toNat = ttl.toNat - 1 := by
  have small := ttl.toNat_lt
  change (2 ^ 8 - 1 + ttl.toNat) % 2 ^ 8 = _
  omega

theorem ttl_least (ttl : UInt8) (live : ttl ≠ 0) (more : ttl ≠ 1) : 2 ≤ ttl.toNat := by
  have zero : ttl.toNat ≠ 0 := fun same => live (UInt8.toNat_inj.mp same)
  have one : ttl.toNat ≠ 1 := fun same => more (UInt8.toNat_inj.mp same)
  omega

theorem ttl_left (ttl : UInt8) : ttl - 1 ≠ 0 ↔ ttl ≠ 1 := by
  grind

theorem ttl_other (ttl : UInt8) : ttl ≠ ttl - 1 := by
  grind

theorem flags_other (v : UInt8) : v &&& ~~~initiator ≠ v - 1 := by
  intro same
  have bit : (v &&& ~~~initiator) &&& 1 = (v - 1) &&& 1 := by rw [same]
  have kept : (v &&& ~~~initiator) &&& 1 = v &&& 1 := by
    rw [UInt8.and_assoc]
    rfl
  rw [kept] at bit
  have parity := congrArg UInt8.toNat bit
  change v.toNat &&& 1 = (2 ^ 8 - 1 + v.toNat) % 2 ^ 8 &&& 1 at parity
  rw [Nat.and_one_is_mod,Nat.and_one_is_mod] at parity
  omega

theorem length_relayed (frame : List UInt8) : (relayed frame).length = frame.length := by
  unfold relayed
  rw [List.length_set,List.length_set]

theorem byteOf_sent (inside : baselen + offsetTtl frame + 1 < frame.length) (late : 22 ≤ i) :
    byteOf (readdressed s (relayed frame)) i = if i = baselen + offsetTtl frame + 1 then byteOf frame i &&& ~~~initiator
      else if i = baselen + offsetTtl frame then byteOf frame i - 1 else byteOf frame i := by
  have long : 22 ≤ (relayed frame).length := by
    rw [length_relayed]
    unfold baselen at inside
    omega
  have same : byteOf (readdressed s (relayed frame)) i = byteOf (relayed frame) i := by
    unfold byteOf
    rw [List.getD_eq_getElem?_getD,List.getD_eq_getElem?_getD,getElem?_readdressed long late]
  rw [same]
  unfold relayed
  rw [byteOf_set _ _ _ _ (by rw [List.length_set]; exact inside),byteOf_set _ _ _ _ (Nat.lt_of_succ_lt inside)]
  split
  · rename_i here
    rw [here]
  · split
    · rename_i here
      rw [here]
    · rfl

theorem sent_lessTtl (inside : baselen + offsetTtl frame + 1 < frame.length) :
    LessTtl frame (readdressed s (relayed frame)) e ↔ e = offsetTtl frame := by
  have start : 22 ≤ baselen + e := by unfold baselen; omega
  have late : ∀ j, 22 ≤ baselen + e + j := fun j => Nat.le_add_right_of_le start
  constructor
  · intro less
    have ttl := less.ttl
    unfold ttlOf at ttl
    rw [byteOf_sent inside start] at ttl
    by_contra apart
    rw [if_neg (show ¬ baselen + e = baselen + offsetTtl frame by omega)] at ttl
    split at ttl
    · exact flags_other _ ttl
    · exact ttl_other _ ttl
  · rintro rfl
    refine ⟨?_,?_,fun j low high => ?_⟩
    · unfold ttlOf
      rw [byteOf_sent inside start,if_neg (by omega),if_pos rfl]
    · rw [byteOf_sent inside (late 1),if_pos rfl]
    · rw [byteOf_sent inside (late j),if_neg (by omega),if_neg (by omega)]

theorem rx_passes (received : Received frame) (present : meshIe frame = some e) (passes : Passes s ifmsh frame e) :
    ∃ after, rxCsaFrame s ifmsh frame = (fwdCsaFrame s frame).map fun copy => (after,copy) := by
  obtain ⟨after,taken⟩ := passes.taken
  refine ⟨after,?_⟩
  rw [rx_present received present,if_neg (show ¬ preValueOf frame e ≤ ifmsh.preValue from UInt16.not_le.mpr passes.new),taken,Option.bind_some]
  have left := (ttl_left (ttlOf frame e)).mpr passes.ttl
  simp [left]

theorem rx_stops (received : Received frame) (present : meshIe frame = some e) (stops : ¬ Passes s ifmsh frame e) :
    ∃ after, rxCsaFrame s ifmsh frame = some (after,none) := by
  rw [rx_present received present]
  by_cases new : ifmsh.preValue ≥ preValueOf frame e
  · rw [if_pos new]
    exact ⟨_,rfl⟩
  rw [if_neg new]
  obtain ⟨out,accepted⟩ := accept_inside (s := s) (parse_inside received.long) (noted ifmsh frame e)
  rw [accepted,Option.bind_some]
  split
  · rename_i both
    simp only [Bool.and_eq_true,decide_eq_true_eq] at both
    have alloc : s.devAllocSkb = false := by
      by_contra given
      refine stops ⟨UInt16.not_le.mp new,⟨out.2,?_⟩,by simpa using given,(ttl_left _).mp both.2⟩
      rw [accepted,← both.1]
    rw [fwd_unallocated alloc]
    exact ⟨_,rfl⟩
  · exact ⟨_,rfl⟩

theorem bounded_iff (received : Received frame) : Bounded s ifmsh frame ↔ Guarded s ifmsh frame := by
  constructor
  · rintro ⟨after,_,result,each⟩
    cases present : meshIe frame with
    | none =>
      rw [rx_absent received present] at result
      cases result
    | some e =>
      refine ⟨e,present,fun passes => ?_⟩
      obtain ⟨_,forward⟩ := rx_passes received present passes
      rw [forward] at result
      by_cases inside : baselen + offsetTtl frame + 1 < frame.length
      · rw [fwd_inside passes.alloc inside] at result
        cases result
        obtain ⟨_,found,enough,less⟩ := each _ rfl
        cases present.symm.trans found
        refine ⟨?_,(sent_lessTtl inside).mp less⟩
        intro zero
        rw [zero] at enough
        cases enough
      · rw [fwd_outside passes.alloc (Nat.le_of_not_lt inside)] at result
        cases result
  rintro ⟨e,present,guarded⟩
  by_cases passes : Passes s ifmsh frame e
  · obtain ⟨live,rfl⟩ := guarded passes
    obtain ⟨after,forward⟩ := rx_passes received present passes
    have within := (parse_inside received.long).meshChanswParamsIe _ present
    have inside : baselen + offsetTtl frame + 1 < frame.length := by omega
    rw [fwd_inside passes.alloc inside] at forward
    refine ⟨after,_,forward,fun sent same => ?_⟩
    cases same
    exact ⟨_,present,ttl_least _ live passes.ttl,(sent_lessTtl inside).mpr rfl⟩
  · obtain ⟨after,result⟩ := rx_stops received present passes
    exact ⟨after,none,result,nofun⟩

end bounded

structure Carried (sent next : List UInt8) : Prop where
  length : next.length = sent.length
  body : ∀ i, 24 ≤ i → next[i]? = sent[i]?

inductive Relays : Nat → List UInt8 → List UInt8 → Prop where
  | start (frame : List UInt8) : Relays 0 frame frame
  | relay (before : Relays n first frame) (received : Received frame) (guarded : Guarded s ifmsh frame)
      (sent : rxCsaFrame s ifmsh frame = some (after,some copy)) (carried : Carried copy next) : Relays (n + 1) first next

theorem find_carried (present : meshIe frame = some e) (length : next.length = frame.length)
    (same : ∀ i, 24 ≤ i → i ≠ baselen + e → i ≠ baselen + e + 1 → next[i]? = frame[i]?) : meshIe next = some e := by
  unfold meshIe at present ⊢
  rw [parse_mesh] at present ⊢
  have shorter : (next.drop baselen).length = (frame.drop baselen).length := by rw [List.length_drop,List.length_drop,length]
  rw [shorter]
  refine find_kept present shorter fun i before after => ?_
  rw [List.getElem?_drop,List.getElem?_drop]
  exact same _ (by unfold baselen; omega) (by omega) (by omega)

theorem relayed_next (received : Received frame) (guarded : Guarded s ifmsh frame)
    (sent : rxCsaFrame s ifmsh frame = some (after,some copy)) (carried : Carried copy next) (present : meshIe frame = some e) :
    meshIe next = some e ∧ ttlOf next e = ttlOf frame e - 1 ∧ 2 ≤ (ttlOf frame e).toNat := by
  obtain ⟨_,present',condition⟩ := guarded
  cases present.symm.trans present'
  have passes : Passes s ifmsh frame e := by
    by_contra stops
    obtain ⟨_,result⟩ := rx_stops received present stops
    cases result.symm.trans sent
  obtain ⟨live,rfl⟩ := condition passes
  obtain ⟨_,forward⟩ := rx_passes received present passes
  have within := (parse_inside received.long).meshChanswParamsIe _ present
  have inside : baselen + offsetTtl frame + 1 < frame.length := by omega
  rw [fwd_inside passes.alloc inside] at forward
  cases forward.symm.trans sent
  have long : 22 ≤ (relayed frame).length := by
    rw [length_relayed]
    unfold baselen at inside
    omega
  have length : next.length = frame.length := by rw [carried.length,length_readdressed long,length_relayed]
  have body : ∀ i, 24 ≤ i → next[i]? = (relayed frame)[i]? :=
    fun i late => (carried.body i late).trans (getElem?_readdressed long (Nat.le_trans (by decide) late))
  refine ⟨find_carried present length fun i late ttl flags => ?_,?_,ttl_least _ live passes.ttl⟩
  · rw [body i late]
    unfold relayed
    rw [List.getElem?_set_ne (Ne.symm flags),List.getElem?_set_ne (Ne.symm ttl)]
  · have less := ((sent_lessTtl (s := s) inside).mpr rfl).ttl
    rw [← less]
    have late : 24 ≤ baselen + offsetTtl frame := by unfold baselen; omega
    unfold ttlOf byteOf
    rw [List.getD_eq_getElem?_getD,List.getD_eq_getElem?_getD,carried.body _ late]

-- Each relay takes one off the TTL of the first frame.
theorem relays_ttl (relays : Relays n first last) (present : meshIe first = some e) :
    meshIe last = some e ∧ n + (ttlOf last e).toNat = (ttlOf first e).toNat ∧ (0 < n → 0 < (ttlOf last e).toNat) := by
  induction relays with
  | start => exact ⟨present,Nat.zero_add _,fun less => absurd less (Nat.lt_irrefl 0)⟩
  | relay before received guarded sent carried ih =>
    obtain ⟨found,_,_⟩ := ih present
    obtain ⟨next,ttl,_⟩ := relayed_next received guarded sent carried found
    rw [ttl,ttl_less _ (by omega)]
    exact ⟨next,by omega,fun _ => by omega⟩

theorem csa_bounded (received : Received frame) (s : Sdata) (ifmsh : IfMesh) :
    (Bounded s ifmsh frame ↔ Guarded s ifmsh frame) ∧
      ∀ n last e, Relays n frame last → meshIe frame = some e → n ≤ (ttlOf frame e).toNat - 1 := by
  refine ⟨bounded_iff received,fun n last e relays present => ?_⟩
  obtain ⟨_,_,_⟩ := relays_ttl relays present
  omega

def csaFrame (ttl : UInt8) : List UInt8 :=
  List.replicate 24 0 ++ [0,4] ++ [37,3,0,6,5] ++ [118,6,ttl,2,62,0,9,0]

def quietSdata : Sdata where
  addr := macAddr 2 0 0 0 0 1
  csaActive := true
  width := .w20
  band := 0
  dot11MeshTTL := 31
  operatingClassToBand := fun _ => none
  getChannel := fun _ _ => true
  chandefUsable := fun _ => true
  chandefDfsRequired := fun _ => 0
  chandefIdentical := fun _ => false
  channelSwitch := fun _ _ _ ifmsh => (0,ifmsh)
  devAllocSkb := true

theorem csaFrame_received (ttl : UInt8) : Received (csaFrame ttl) := ⟨by simp [csaFrame,baselen],rfl,rfl⟩

theorem csa_bounded_three : Bounded quietSdata ⟨.none,0,0⟩ (csaFrame 3) :=
  (csa_bounded (csaFrame_received 3) quietSdata ⟨.none,0,0⟩).1.mpr ⟨7,rfl,fun _ => ⟨by decide,rfl⟩⟩

theorem csa_unbounded : ¬ ∀ (s : Sdata) (ifmsh : IfMesh) (frame : List UInt8), Received frame → Bounded s ifmsh frame := by
  intro always
  obtain ⟨_,_,result,each⟩ := always quietSdata ⟨.none,0,0⟩ (csaFrame 0) (csaFrame_received 0)
  cases result
  obtain ⟨e,found,enough,_⟩ := each _ rfl
  have place : meshIe (csaFrame 0) = some 7 := rfl
  cases place.symm.trans found
  exact absurd enough (by decide)

end Mac80211.MeshCsa

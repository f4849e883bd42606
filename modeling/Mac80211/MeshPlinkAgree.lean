import Mac80211.MeshPlinkFits

namespace Mac80211.MeshPlink
open Ieee80211

-- The ids that each station has drawn. A frame sent is received at any time, any number of times.
inductive Peering (addr : Bool → EthAddr) (start : Bool → World) : (Bool → World) → (Bool → List UInt16) → Prop where
  | refl : Peering addr start start fun _ => []
  | step (prior : Peering addr start net drawn) (side : Bool) (ran : MeshPlink.step e (net side) = some w) (peers : e.peers = true)
      (fresh : ∀ id ∈ drawnIds e.draws, id ∉ drawn side)
      (carried : ∀ rx, e.heardFrame = some rx → rx.sa = addr (!side) → ∃ s ∈ (net !side).sent, s.da = addr side ∧ s.carriedBy rx) :
      Peering addr start (Function.update net side w) (Function.update drawn side (drawn side ++ drawnIds e.draws))

def Uncrossed (me other : EthAddr) (w v : World) : Prop :=
  ∀ a ∈ w.stations, a.phase = .listed → a.addr = other → ∀ b ∈ v.stations, b.phase = .listed → b.addr = me →
    ¬((∃ llid, Confirmed v.sent me llid a.llid ∧ llid ≠ b.llid) ∧ ∃ llid, Confirmed w.sent other llid b.llid ∧ llid ≠ a.llid)

section net
variable {e : Event}
 

theorem Uncrossed.symm (uncrossed : Uncrossed me other w v) : Uncrossed other me v w :=
  fun b there listed addr a there' listed' addr' both => uncrossed a there' listed' addr' b there listed addr both.symm

theorem kept_uncrossed (fits : Fits other me v theirs ours w.sent) (uncrossed : Uncrossed me other w v) (positive : ∀ id ∈ ours, id ≠ 0)
    (new : ∀ id ∈ ids, id ∉ ours) (kept : Kept other ids w w') : Uncrossed me other w' v := by
  intro a there listed addr b there' listed' addr' both
  obtain ⟨⟨llid,confirmed,other'⟩,llid',confirmed',ours'⟩ := both
  have drawn := fits.confirms llid a.llid confirmed
  rcases kept.llid a there listed addr with zero | fresh | ⟨old,before,listed'',addr'',same⟩
  · exact positive _ drawn zero
  · exact new _ fresh drawn
  · rcases kept.confirms llid' b.llid confirmed' with early | now
    · refine uncrossed old before listed'' addr'' b there' listed' addr' ⟨⟨llid,?_,other'⟩,llid',early,?_⟩
      · rw [same]
        exact confirmed
      · rw [same]
        exact ours'
    · exact ours' (now a there listed addr).symm

theorem pair_step (fits : Fits me other w ours theirs v.sent) (fits' : Fits other me v theirs ours w.sent) (uncrossed : Uncrossed me other w v)
    (ran : step e w = some w') (peers : e.peers = true) (fresh : ∀ id ∈ drawnIds e.draws, id ∉ ours)
    (carried : ∀ rx, e.heardFrame = some rx → rx.sa = other → ∃ s ∈ v.sent, s.da = me ∧ s.carriedBy rx) :
    Fits me other w' (ours ++ drawnIds e.draws) theirs v.sent ∧ Fits other me v theirs (ours ++ drawnIds e.draws) w'.sent ∧
      Uncrossed me other w' v := by
  have new : ∀ id ∈ drawnIds e.draws, id ∉ ours ∧ id ≠ 0 := fun id member => ⟨fresh id member,drawnIds_positive e.draws id member⟩
  have from_ : Heard me other ours theirs v.sent e.heardFrame := ⟨fits'.opens,fits'.positive,carried⟩
  obtain ⟨mid,joined,course⟩ := step_course ran peers
  have joins : Fits me other mid ours theirs v.sent ∧ Kept other (drawnIds e.draws) w mid ∧ ∀ s ∈ w.sent, s ∈ mid.sent := by
    rcases joined with rfl | ⟨_,joined⟩
    · exact ⟨fits,.refl _ _ _,fun _ => id⟩
    · obtain ⟨_,sent,_⟩ := joined.sent
      exact ⟨join_fits fits joined,join_kept joined,fun s there => sent ▸ List.mem_append_left _ there⟩
  obtain ⟨fits'',kept'⟩ := course_fits joins.1 from_ new course
  have grows : ∀ s ∈ w.sent, s ∈ w'.sent := by
    intro s there
    have there := joins.2.2 s there
    cases course with
    | still _ sent _ => exact sent ▸ List.mem_append_left _ there
    | turn _ _ sends _ =>
      exact (congrArg (s ∈ ·) sends.1).mpr (List.mem_append_left _ there)
  refine ⟨fits'',fits_more fits' (fun id => List.mem_append_left _) grows,?_⟩
  have first := kept_uncrossed fits' uncrossed fits.positive fresh joins.2.1
  exact kept_uncrossed (fits_more fits' (fun _ => id) joins.2.2) first fits.positive fresh kept'

structure Agreeing (addr : Bool → EthAddr) (net : Bool → World) (drawn : Bool → List UInt16) : Prop where
  left : Fits (addr false) (addr true) (net false) (drawn false) (drawn true) (net true).sent
  right : Fits (addr true) (addr false) (net true) (drawn true) (drawn false) (net false).sent
  uncrossed : Uncrossed (addr false) (addr true) (net false) (net true)

theorem empty_fits (stations : w.stations = []) (sent : w.sent = []) : Fits me other w [] [] heard := by
  have noStation : ∀ sta ∈ w.stations, False := fun sta there => by
    rw [stations] at there
    cases there
  have noFrame : ∀ s ∈ w.sent, False := fun s there => by
    rw [sent] at there
    cases there
  exact ⟨fun sta there => (noStation sta there).elim,fun sta there => (noStation sta there).elim,fun sta there => (noStation sta there).elim,
    fun sta there => (noStation sta there).elim,fun s there => (noFrame s there).elim,fun _ _ ⟨s,there,_⟩ => (noFrame s there).elim,
    fun sta there => (noStation sta there).elim,fun _ _ a _ there => (noStation a (List.mem_of_getElem? there)).elim,fun _ none => by cases none⟩

theorem peering_agreeing (empty : ∀ side, (start side).stations = [] ∧ (start side).sent = []) (run : Peering addr start net drawn) :
    Agreeing addr net drawn := by
  induction run with
  | refl =>
    refine ⟨empty_fits (empty false).1 (empty false).2,empty_fits (empty true).1 (empty true).2,fun a there => ?_⟩
    rw [(empty false).1] at there
    cases there
  | step prior side ran peers fresh carried ih =>
    obtain ⟨left,right,uncrossed⟩ := ih
    cases side with
    | false =>
      obtain ⟨_,_,uncrossed'⟩ := pair_step left right uncrossed ran peers fresh carried
      refine ⟨?_,?_,?_⟩
      all_goals simpa
    | true =>
      obtain ⟨_,_,uncrossed'⟩ := pair_step right left uncrossed.symm ran peers fresh carried
      have uncrossed' := uncrossed'.symm
      refine ⟨?_,?_,?_⟩
      all_goals simpa

theorem peering_agrees (start net : Bool → World) (drawn : Bool → List UInt16) (empty : ∀ side, (start side).stations = [] ∧ (start side).sent = [])
    (run : Peering (fun side => (start side).sdata.addr) start net drawn) (a b : StaInfo)
    (holdsB : a ∈ (net false).stations ∧ a.phase = .listed ∧ a.addr = (start true).sdata.addr ∧ a.plinkState = .estab)
    (holdsA : b ∈ (net true).stations ∧ b.phase = .listed ∧ b.addr = (start false).sdata.addr ∧ b.plinkState = .estab) :
    a.plid = b.llid ∧ a.llid = b.plid := by
  obtain ⟨left,right,uncrossed⟩ := peering_agreeing empty run
  obtain ⟨there,listed,addr,estab⟩ := holdsB
  obtain ⟨there',listed',addr',estab'⟩ := holdsA
  have namedA := left.named a there addr (by rw [estab]; rfl)
  have namedB := right.named b there' addr' (by rw [estab']; rfl)
  by_cases same : a.plid = b.llid
  · -- The other station has confirmed this very link.
    rw [same] at namedA
    exact ⟨same,right.same b there' listed' addr' a.llid namedA⟩
  · by_cases same' : b.plid = a.llid
    · rw [same'] at namedB
      exact absurd (left.same a there listed addr b.llid namedB).symm same
    · exact absurd ⟨⟨a.plid,namedA,same⟩,b.plid,namedB,same'⟩ (uncrossed a there listed addr b there' listed' addr')

end net

section meeting

def facing (side : Bool) : World :=
  if side then {sampleMesh with sdata := {sampleMesh.sdata with addr := samplePeer}}
  else {sampleMesh with sdata := {sampleMesh.sdata with mshcfg := {sampleMesh.sdata.mshcfg with autoOpenPlinks := true}}}

def facingWorld (side : Bool) (events : List Event) : World := (run events (facing side)).getD (facing side)

def facedOpen : PeeringFrame := ⟨sampleMesh.sdata.addr,samplePeer,.peeringOpen,sampleElems sampleMesh.sdata.meshId [0,0,17,0]⟩
def facedConfirm : PeeringFrame := ⟨sampleMesh.sdata.addr,samplePeer,.peeringConfirm,sampleElems sampleMesh.sdata.meshId [0,0,17,0,34,0]⟩

def heardBeacon : List Event := [.beacon samplePeer (sampleElems sampleMesh.sdata.meshId []) sampleRoom [16]]
def heardOpen : List Event := heardBeacon ++ [.frame (sampleOpen sampleMesh.sdata.meshId) sampleRoom []]
def heardConfirm : List Event := heardOpen ++ [.frame (sampleConfirm sampleMesh.sdata.meshId) sampleRoom []]
def facedOpened : List Event := [.frame facedOpen sampleRoom [33]]
def facedConfirmed : List Event := facedOpened ++ [.frame facedConfirm sampleRoom []]

def facingAddr (side : Bool) : EthAddr := (facing side).sdata.addr

theorem facing_carried {net : Bool → World} (side : Bool) (rx : PeeringFrame) (s : Sent) (there : s ∈ (net !side).sent) (da : s.da = facingAddr side)
    (same : rx.da = s.da ∧ rx.action = s.action ∧ rx.elems.peering = some (s.peering 0)) (frame : PeeringFrame) (heard : some rx = some frame) :
    ∃ s ∈ (net !side).sent, s.da = facingAddr side ∧ s.carriedBy frame := by
  cases heard
  exact ⟨s,there,da,same.1,same.2.1,0,same.2.2⟩

theorem drawn_fresh {ids drawn : List UInt16} (fresh : ids.all (fun id => !drawn.contains id) = true) : ∀ id ∈ ids, id ∉ drawn := by
  intro id there before
  have unseen := List.all_eq_true.mp fresh id there
  rw [List.contains_iff_mem.mpr before] at unseen
  cases unseen

theorem facing_meet : ∃ net drawn, Peering facingAddr facing net drawn ∧
    net false = facingWorld false heardConfirm ∧ net true = facingWorld true facedConfirmed := by
  have heard : Peering facingAddr facing _ _ :=
    .step .refl false (e := .beacon samplePeer (sampleElems sampleMesh.sdata.meshId []) sampleRoom [16]) (w := facingWorld false heardBeacon)
      (by decide) rfl (drawn_fresh (by decide)) fun _ none => by cases none
  have opened : Peering facingAddr facing _ _ :=
    .step heard true (e := .frame facedOpen sampleRoom [33]) (w := facingWorld true facedOpened) (by decide) rfl (drawn_fresh (by decide))
      fun rx given _ => facing_carried true facedOpen ⟨.peeringOpen,samplePeer,17,0,.zero⟩ (by decide) rfl (by decide) rx given
  have answered : Peering facingAddr facing _ _ :=
    .step opened false (e := .frame (sampleOpen sampleMesh.sdata.meshId) sampleRoom []) (w := facingWorld false heardOpen) (by decide) rfl (drawn_fresh (by decide))
      fun rx given _ => facing_carried false (sampleOpen sampleMesh.sdata.meshId) ⟨.peeringOpen,sampleMesh.sdata.addr,34,17,.zero⟩
        (by decide) rfl (by decide) rx given
  have confirmed : Peering facingAddr facing _ _ :=
    .step answered false (e := .frame (sampleConfirm sampleMesh.sdata.meshId) sampleRoom []) (w := facingWorld false heardConfirm) (by decide) rfl
      (drawn_fresh (by decide)) fun rx given _ => facing_carried false (sampleConfirm sampleMesh.sdata.meshId)
        ⟨.peeringConfirm,sampleMesh.sdata.addr,34,17,.zero⟩ (by decide) rfl (by decide) rx given
  have met : Peering facingAddr facing _ _ :=
    .step confirmed true (e := .frame facedConfirm sampleRoom []) (w := facingWorld true facedConfirmed) (by decide) rfl (drawn_fresh (by decide))
      fun rx given _ => facing_carried true facedConfirm ⟨.peeringConfirm,samplePeer,17,34,.zero⟩ (by decide) rfl (by decide) rx given
  exact ⟨_,_,met,rfl,rfl⟩

theorem peering_agrees_done : ∃ a b : StaInfo, (a ∈ (facingWorld false heardConfirm).stations ∧ a.plinkState = .estab) ∧
    (b ∈ (facingWorld true facedConfirmed).stations ∧ b.plinkState = .estab) ∧ a.plid = b.llid ∧ a.llid = b.plid := by
  obtain ⟨net,drawn,met,left,right⟩ := facing_meet
  have hasB : ∃ a ∈ (facingWorld false heardConfirm).stations, a.phase = .listed ∧ a.addr = (facing true).sdata.addr ∧ a.plinkState = .estab := by decide
  have hasA : ∃ b ∈ (facingWorld true facedConfirmed).stations, b.phase = .listed ∧ b.addr = (facing false).sdata.addr ∧ b.plinkState = .estab := by decide
  obtain ⟨a,there,listed,addr,estab⟩ := hasB
  obtain ⟨b,there',listed',addr',estab'⟩ := hasA
  have empty : ∀ side, (facing side).stations = [] ∧ (facing side).sent = [] := by decide
  exact ⟨a,b,⟨there,estab⟩,⟨there',estab'⟩,
    peering_agrees facing net drawn empty met a b ⟨left ▸ there,listed,addr,estab⟩ ⟨right ▸ there',listed',addr',estab'⟩⟩

end meeting

end Mac80211.MeshPlink

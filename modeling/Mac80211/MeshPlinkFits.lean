import Mac80211.MeshPlinkCourse

namespace Mac80211.MeshPlink
open Ieee80211
open List (mem_append mem_append_right mem_singleton)

def putLe16 (v : UInt16) : List UInt8 := [v.toUInt8,(v >>> 8).toUInt8]

def Sent.peering (s : Sent) (code : UInt16) : List UInt8 :=
  [0,0] ++ putLe16 s.llid ++
    (if s.action = .peeringConfirm ∨ s.action = .peeringClose ∧ s.plid ≠ 0 then putLe16 s.plid else []) ++
    if s.action = .peeringClose then putLe16 code else []

-- The rest of the elements may be anything.
def Sent.carriedBy (s : Sent) (rx : PeeringFrame) : Prop :=
  rx.da = s.da ∧ rx.action = s.action ∧ ∃ code, rx.elems.peering = some (s.peering code)

def Confirmed (sent : List Sent) (da : EthAddr) (llid plid : UInt16) : Prop :=
  ∃ s ∈ sent, s.da = da ∧ s.action = .peeringConfirm ∧ s.llid = llid ∧ s.plid = plid

-- One station's link with the other, which has drawn theirs and sent heard.
structure Fits (me other : EthAddr) (w : World) (drawn theirs : List UInt16) (heard : List Sent) : Prop where
  ids : ∀ sta ∈ w.stations, sta.addr = other → sta.llid ≠ 0 → sta.llid ∈ drawn
  peers : ∀ sta ∈ w.stations, sta.addr = other → sta.plid ≠ 0 → sta.plid ∈ theirs
  active : ∀ sta ∈ w.stations, sta.addr = other → sta.plinkState.active = true → sta.llid ≠ 0
  named : ∀ sta ∈ w.stations, sta.addr = other → sta.plinkState.confirmed = true → Confirmed heard me sta.plid sta.llid
  opens : ∀ s ∈ w.sent, s.da = other → s.action ≠ .peeringClose → s.llid ∈ drawn
  confirms : ∀ llid plid, Confirmed w.sent other llid plid → plid ∈ theirs
  same : ∀ sta ∈ w.stations, sta.phase = .listed → sta.addr = other → ∀ plid, Confirmed w.sent other sta.llid plid → plid = sta.plid
  one : ∀ (i j : Nat) (a b : StaInfo), w.stations[i]? = some a → w.stations[j]? = some b → a.phase = .listed → b.phase = .listed →
    a.addr = other → b.addr = other → i = j
  positive : ∀ id ∈ drawn, id ≠ 0

section fits

theorem getUnalignedLe16_put (v : UInt16) : v.toUInt8.toUInt16 ||| (v >>> 8).toUInt8.toUInt16 <<< 8 = v := by
  apply UInt16.toNat_inj.mp
  have small := v.toNat_lt
  have high : ((v >>> 8).toUInt8.toUInt16 <<< 8).toNat = (v.toNat / 256) <<< 8 := by
    simp [Nat.shiftRight_eq_div_pow,Nat.shiftLeft_eq]
    omega
  have low : v.toUInt8.toUInt16.toNat = v.toNat % 256 := by simp
  rw [UInt16.toNat_or,high,low,Nat.or_comm,← Nat.shiftLeft_add_eq_or_of_lt (Nat.mod_lt _ (by decide)),Nat.shiftLeft_eq]
  omega

theorem carried_ids {s : Sent} (carried : s.carriedBy rx) :
    rx.plid = s.llid ∧ (s.action = .peeringConfirm → rx.llid = s.plid) := by
  obtain ⟨_,action,code,peering⟩ := carried
  have llid : rx.plid = s.llid := by
    unfold PeeringFrame.plid
    rw [peering]
    exact getUnalignedLe16_put s.llid
  refine ⟨llid,fun confirms => ?_⟩
  unfold PeeringFrame.llid
  rw [action,confirms,peering]
  show getUnalignedLe16 (s.peering code) 4 = s.plid
  unfold Sent.peering
  rw [confirms,if_pos (.inl rfl)]
  exact getUnalignedLe16_put s.plid

theorem drawnIds_positive (draws : List UInt16) (id : UInt16) (member : id ∈ drawnIds draws) : id ≠ 0 := by
  obtain ⟨draw,_,rfl⟩ := List.mem_map.mp member
  intro zero
  have nat := congrArg UInt16.toNat zero
  rw [UInt16.toNat_add,UInt16.toNat_mod] at nat
  have small : draw.toNat % maxAid.toNat < 2007 := Nat.mod_lt _ (by decide)
  have one : (1 : UInt16).toNat = 1 := rfl
  have none : (0 : UInt16).toNat = 0 := rfl
  omega

theorem confirmed_active (state : PlinkState) (confirmed : state.confirmed = true) : state.active = true := by
  cases state <;> first | rfl | cases confirmed

theorem Confirmed.append (confirmed : Confirmed (sent ++ fs) da llid plid) :
    Confirmed sent da llid plid ∨ ∃ s ∈ fs, s.da = da ∧ s.action = .peeringConfirm ∧ s.llid = llid ∧ s.plid = plid := by
  obtain ⟨s,member,facts⟩ := confirmed
  rcases mem_append.mp member with before | now
  · exact .inl ⟨s,before,facts⟩
  · exact .inr ⟨s,now,facts⟩

theorem Confirmed.closes (closes : ∀ s ∈ fs, s.closes)
    (confirmed : Confirmed (sent ++ fs) da llid plid) : Confirmed sent da llid plid := by
  rcases confirmed.append with before | ⟨s,member,_,confirms,_⟩
  · exact before
  · cases (closes s member).symm.trans confirms

theorem Fits.confirmed_drawn (fits : Fits me other w drawn theirs heard) (confirmed : Confirmed w.sent other llid plid) : llid ∈ drawn := by
  obtain ⟨s,member,da,confirms,own,_⟩ := confirmed
  exact own ▸ fits.opens s member da (by rw [confirms]; exact ActionCode.noConfusion)

theorem join_fits (fits : Fits me other w drawn theirs heard) (joined : Joined w w' sta) : Fits me other w' drawn theirs heard := by
  obtain ⟨_,sent,closes⟩ := joined.sent
  have members : ∀ other ∈ w'.stations, other ∈ w.stations ∨ other = sta := by
    intro other member
    rw [joined.stations] at member
    exact (mem_append.mp member).imp_right mem_singleton.mp
  have confirmed : ∀ {llid plid}, Confirmed w'.sent other llid plid → Confirmed w.sent other llid plid := by
    intro llid plid confirmed
    rw [sent] at confirmed
    exact confirmed.closes closes
  refine ⟨fun one member addr given => ?_,fun one member addr given => ?_,fun one member addr given => ?_,fun one member addr given => ?_,
    fun s member da given => ?_,fun llid plid given => fits.confirms llid plid (confirmed given),fun one member listed addr plid given => ?_,
    fun i j a b atI atJ listedA listedB addrA addrB => ?_,fits.positive⟩
  · rcases members one member with before | rfl
    · exact fits.ids one before addr given
    · exact absurd joined.llid given
  · rcases members one member with before | rfl
    · exact fits.peers one before addr given
    · exact absurd joined.plid given
  · rcases members one member with before | rfl
    · exact fits.active one before addr given
    · exact absurd (joined.inactive.symm.trans given) Bool.false_ne_true
  · rcases members one member with before | rfl
    · exact fits.named one before addr given
    · exact absurd (joined.inactive.symm.trans (confirmed_active _ given)) Bool.false_ne_true
  · rw [sent] at member
    rcases mem_append.mp member with before | now
    · exact fits.opens s before da given
    · exact absurd (closes s now) given
  · rcases members one member with before | rfl
    · exact fits.same one before listed addr plid (confirmed given)
    · have drawn := fits.confirmed_drawn (confirmed given)
      rw [joined.llid] at drawn
      exact absurd rfl (fits.positive 0 drawn)
  -- The new station is listed only where there was none.
  rw [joined.stations] at atI atJ
  have clash : ∀ {k l : Nat} {c d : StaInfo}, (w.stations ++ [sta])[k]? = some c → (w.stations ++ [sta])[l]? = some d → c.phase = .listed → d.phase = .listed →
      c.addr = other → d.addr = other → k < w.stations.length → ¬l < w.stations.length → False := by
    intro k l c d atK atL listedC listedD addrC addrD inside _
    rw [List.getElem?_append_left inside] at atK
    rw [List.getElem?_append_right (by omega)] at atL
    have last := List.mem_of_getElem? atL
    cases mem_singleton.mp last
    exact joined.alone listedD c (List.mem_of_getElem? atK) listedC (addrC.trans addrD.symm)
  by_cases insideI : i < w.stations.length
  · by_cases insideJ : j < w.stations.length
    · rw [List.getElem?_append_left insideI] at atI
      rw [List.getElem?_append_left insideJ] at atJ
      exact fits.one i j a b atI atJ listedA listedB addrA addrB
    · exact (clash atI atJ listedA listedB addrA addrB insideI insideJ).elim
  · by_cases insideJ : j < w.stations.length
    · exact (clash atJ atI listedB listedA addrB addrA insideJ insideI).elim
    · have lengthI := (List.getElem?_eq_some_iff.mp atI).1
      have lengthJ := (List.getElem?_eq_some_iff.mp atJ).1
      rw [List.length_append,List.length_singleton] at lengthI lengthJ
      omega

structure Heard (me other : EthAddr) (drawn theirs : List UInt16) (heard : List Sent) (rx : Option PeeringFrame) : Prop where
  opens : ∀ s ∈ heard, s.da = me → s.action ≠ .peeringClose → s.llid ∈ theirs
  positive : ∀ id ∈ theirs, id ≠ 0
  carried : ∀ frame, rx = some frame → frame.sa = other → ∃ s ∈ heard, s.da = me ∧ s.carriedBy frame

structure Worth (me other : EthAddr) (w : World) (v v' : Link) (fs : List Sent) (drawn theirs : List UInt16) (heard : List Sent) : Prop where
  listed : v'.phase = .listed → v.phase = .listed
  ids : v'.llid ≠ 0 → v'.llid ∈ drawn
  peers : v'.plid ≠ 0 → v'.plid ∈ theirs
  active : v'.state.active = true → v'.llid ≠ 0
  named : v'.state.confirmed = true → Confirmed heard me v'.plid v'.llid
  opens : ∀ s ∈ fs, s.action ≠ .peeringClose → s.llid ∈ drawn
  confirms : ∀ s ∈ fs, s.action = .peeringConfirm → s.llid = v'.llid ∧ s.plid = v'.plid ∧ s.plid ∈ theirs ∧ v.phase = .listed
  same : v'.phase = .listed → ∀ plid, Confirmed w.sent other v'.llid plid → plid = v'.plid

-- The ids of the frame are those of the link of the other station.
theorem Heard.plid (from_ : Heard me other drawn theirs heard (some frame)) (sender : frame.sa = other) (opens : frame.action ≠ .peeringClose) :
    frame.plid ∈ theirs := by
  obtain ⟨s,there,da,carried⟩ := from_.carried frame rfl sender
  rw [(carried_ids carried).1]
  exact from_.opens s there da (carried.2.1 ▸ opens)

-- A confirm that was sent before has the id that the link has now.
theorem Fits.keeps (fits : Fits me other w drawn theirs heard) (from_ : Heard me other drawn theirs heard rx) (member : sta ∈ w.stations)
    (addr : sta.addr = other) (now : sta.plid = 0 ∨ sta.plid = plid') (listed : sta.phase = .listed) (plid : UInt16)
    (confirmed : Confirmed w.sent other sta.llid plid) : plid = plid' := by
  have same := fits.same sta member listed addr plid confirmed
  rcases now with zero | equal
  · rw [same,zero] at confirmed
    exact absurd rfl (from_.positive 0 (fits.confirms _ _ confirmed))
  · exact same.trans equal

theorem turn_worth (fits : Fits me other w drawn theirs heard) (from_ : Heard me other drawn theirs heard rx) (member : sta ∈ w.stations)
    (addr : sta.addr = other) (sender : ∀ frame, rx = some frame → frame.sa = sta.addr ∧ sta.phase = .listed)
    (new : ∀ id ∈ ids, id ∉ drawn ∧ id ≠ 0) (turn : Turn ids rx sta.link v fs) :
    Worth me other w sta.link v fs (drawn ++ ids) theirs heard := by
  have old : sta.llid ≠ 0 → sta.llid ∈ drawn ++ ids := fun given => List.mem_append_left _ (fits.ids sta member addr given)
  have active := fits.active sta member addr
  have named := fits.named sta member addr
  cases turn with
  | stay state phase listed confirmed active' frames =>
    refine ⟨listed,old,fits.peers sta member addr,fun on => active (active' on),fun on => named (confirmed on),fun s there opens => ?_,
      fun s there confirms => ?_,fun on => fits.same sta member (listed on) addr⟩
    · rcases frames s there with closes | ⟨_,own,on⟩
      · exact absurd closes opens
      · rw [own]
        exact old (active on)
    · rcases frames s there with closes | ⟨opens,_⟩
      · cases closes.symm.trans confirms
      · cases opens.symm.trans confirms
  | restart =>
    exact ⟨id,absurd rfl,absurd rfl,nofun,nofun,nofun,nofun,fun _ plid sent => absurd rfl (fits.positive 0 (fits.confirmed_drawn sent))⟩
  | «open» listen drawn' frames =>
    refine ⟨id,fun _ => mem_append_right _ drawn',fits.peers sta member addr,fun _ => (new _ drawn').2,nofun,fun s there _ => ?_,
      fun s there confirms => ?_,fun _ plid sent => absurd (fits.confirmed_drawn sent) (new _ drawn').1⟩
    · rw [(frames s there).2]
      exact mem_append_right _ drawn'
    · cases (frames s there).1.symm.trans confirms
  | answer listen hears opens drawn' frames =>
    subst hears
    obtain ⟨sa,listed⟩ := sender _ rfl
    have known := from_.plid (sa.trans addr) (by rw [opens]; exact ActionCode.noConfusion)
    refine ⟨id,fun _ => mem_append_right _ drawn',fun _ => known,fun _ => (new _ drawn').2,nofun,fun s there _ => ?_,fun s there _ => ?_,
      fun _ plid sent => absurd (fits.confirmed_drawn sent) (new _ drawn').1⟩
    · rw [(frames s there).2.1]
      exact mem_append_right _ drawn'
    · obtain ⟨_,own,theirs⟩ := frames s there
      exact ⟨own,theirs,theirs ▸ known,listed⟩
  | accept state hears opens now confirmed active' frames =>
    subst hears
    obtain ⟨sa,listed⟩ := sender _ rfl
    have known := from_.plid (sa.trans addr) (by rw [opens]; exact ActionCode.noConfusion)
    refine ⟨id,old,fun _ => known,fun on => active (active' on),fun on => ?_,fun s there opens => ?_,fun s there confirms => ?_,
      fun _ => fits.keeps from_ member addr now listed⟩
    · have named := named (confirmed on)
      rcases now with zero | equal
      · have zero : sta.plid = 0 := zero
        rw [zero] at named
        obtain ⟨s,there,da,confirms,own,_⟩ := named
        exact absurd own (from_.positive _ (from_.opens s there da (by rw [confirms]; exact ActionCode.noConfusion)))
      · exact equal ▸ named
    · rcases frames s there with closes | ⟨_,own,_,on⟩
      · exact absurd closes opens
      · rw [own]
        exact old (active on)
    · rcases frames s there with closes | ⟨_,own,theirs,_⟩
      · cases closes.symm.trans confirms
      · exact ⟨own,theirs,theirs ▸ known,listed⟩
  | confirm state hears confirms own now active' frames =>
    subst hears
    obtain ⟨sa,listed⟩ := sender _ rfl
    have known := from_.plid (sa.trans addr) (by rw [confirms]; exact ActionCode.noConfusion)
    refine ⟨id,old,fun _ => known,fun on => active (active' on),fun _ => ?_,fun s there opens => absurd (frames s there) opens,
      fun s there confirms => (by cases (frames s there).symm.trans confirms),fun _ => fits.keeps from_ member addr now listed⟩
    -- The confirm has named the id of this link, and that of the other.
    obtain ⟨s,there,da,carried⟩ := from_.carried _ rfl (sa.trans addr)
    obtain ⟨theirs,ours⟩ := carried_ids carried
    have confirms := carried.2.1.symm.trans confirms
    exact ⟨s,there,da,confirms,theirs.symm,(ours confirms).symm.trans own.symm⟩

theorem turn_ids (turn : Turn ids rx link link' fs) :
    link'.addr = link.addr ∧ (link'.llid = 0 ∨ link'.llid ∈ ids ∨ link'.llid = link.llid) := by
  cases turn with
  | stay | accept | confirm => exact ⟨rfl,.inr (.inr rfl)⟩
  | restart => exact ⟨rfl,.inl rfl⟩
  | «open» _ drawn | answer _ _ _ drawn => exact ⟨rfl,.inr (.inl drawn)⟩

structure Kept (other : EthAddr) (ids : List UInt16) (w w' : World) : Prop where
  llid : ∀ sta' ∈ w'.stations, sta'.phase = .listed → sta'.addr = other → sta'.llid = 0 ∨ sta'.llid ∈ ids ∨
    ∃ sta ∈ w.stations, sta.phase = .listed ∧ sta.addr = other ∧ sta.llid = sta'.llid
  confirms : ∀ llid plid, Confirmed w'.sent other llid plid → Confirmed w.sent other llid plid ∨
    ∀ sta' ∈ w'.stations, sta'.phase = .listed → sta'.addr = other → sta'.llid = llid

theorem join_kept (joined : Joined w w' sta) : Kept other ids w w' := by
  obtain ⟨_,sent,closes⟩ := joined.sent
  refine ⟨fun sta' member listed addr => ?_,fun llid plid confirmed => .inl ?_⟩
  · rw [joined.stations] at member
    rcases mem_append.mp member with before | new
    · exact .inr (.inr ⟨sta',before,listed,addr,rfl⟩)
    · exact .inl ((congrArg StaInfo.llid (mem_singleton.mp new)).trans joined.llid)
  · rw [sent] at confirmed
    exact confirmed.closes closes

theorem Kept.refl (other : EthAddr) (ids : List UInt16) (w : World) : Kept other ids w w :=
  ⟨fun sta member listed addr => .inr (.inr ⟨sta,member,listed,addr,rfl⟩),fun _ _ confirmed => .inl confirmed⟩

section
variable (fits : Fits me other w drawn theirs heard)
include fits

theorem fits_more (more : ∀ id ∈ theirs, id ∈ theirs')
    (hears : ∀ s ∈ heard, s ∈ heard') : Fits me other w drawn theirs' heard' := by
  refine ⟨fits.ids,fun sta member addr given => more _ (fits.peers sta member addr given),fits.active,fun sta member addr on => ?_,fits.opens,
    fun llid plid confirmed => more _ (fits.confirms llid plid confirmed),fits.same,fits.one,fits.positive⟩
  obtain ⟨s,there,facts⟩ := fits.named sta member addr on
  exact ⟨s,hears s there,facts⟩

theorem fits_drawn (new : ∀ id ∈ ids, id ∉ drawn ∧ id ≠ 0) : Fits me other w (drawn ++ ids) theirs heard := by
  refine ⟨fun sta member addr given => List.mem_append_left _ (fits.ids sta member addr given),fits.peers,fits.active,fits.named,
    fun s member da opens => List.mem_append_left _ (fits.opens s member da opens),fits.confirms,fits.same,fits.one,fun id member => ?_⟩
  rcases mem_append.mp member with before | now
  · exact fits.positive id before
  · exact (new id now).2

theorem course_fits (from_ : Heard me other drawn theirs heard rx) (new : ∀ id ∈ ids, id ∉ drawn ∧ id ≠ 0)
    (course : Course ids rx w w') : Fits me other w' (drawn ++ ids) theirs heard ∧ Kept other ids w w' := by
  have wide := fits_drawn fits new
  cases course with
  | still stations sent closes =>
    have confirmed : ∀ {llid plid}, Confirmed w'.sent other llid plid → Confirmed w.sent other llid plid := by
      intro llid plid confirmed
      rw [sent] at confirmed
      exact confirmed.closes closes
    refine ⟨⟨stations ▸ wide.ids,stations ▸ wide.peers,stations ▸ wide.active,stations ▸ wide.named,fun s member da opens => ?_,
      fun llid plid given => wide.confirms llid plid (confirmed given),fun sta member listed addr plid given => ?_,stations ▸ wide.one,wide.positive⟩,
      fun sta member listed addr => .inr (.inr ⟨sta,stations ▸ member,listed,addr,rfl⟩),fun _ _ given => .inl (confirmed given)⟩
    · rw [sent] at member
      rcases mem_append.mp member with before | now
      · exact wide.opens s before da opens
      · exact absurd (closes s now) opens
    · exact wide.same sta (stations ▸ member) listed addr plid (confirmed given)
  | turn found sender sends turn =>
    rename_i i sta p fs
    have member := List.mem_of_getElem? found
    obtain ⟨sent,da⟩ := sends
    have sent : (w.put i p).sent = w.sent ++ fs := sent
    have members : ∀ one ∈ (w.put i p).stations, one ∈ w.stations ∨ one = p.sta := fun one there =>
      List.mem_or_eq_of_mem_set there
    have each : ∀ j one, (w.put i p).stations[j]? = some one → j = i ∧ one = p.sta ∨ j ≠ i ∧ w.stations[j]? = some one := by
      intro j one there
      by_cases same : i = j
      · have there : (w.stations.set i p.sta)[j]? = some one := there
        rw [← same,List.getElem?_set_self (List.getElem?_eq_some_iff.mp found).1] at there
        exact .inl ⟨same.symm,(Option.some.inj there).symm⟩
      · have there : (w.stations.set i p.sta)[j]? = some one := there
        rw [List.getElem?_set_ne same] at there
        exact .inr ⟨fun eq => same eq.symm,there⟩
    obtain ⟨addr',llid'⟩ := turn_ids turn
    by_cases addr : sta.addr = other
    · have worth := turn_worth fits from_ member addr sender new turn
      have mine : ∀ {llid plid}, Confirmed (w.put i p).sent other llid plid → Confirmed w.sent other llid plid ∨
          llid = p.sta.llid ∧ plid = p.sta.plid ∧ plid ∈ theirs ∧ sta.phase = .listed := by
        intro llid plid confirmed
        rw [sent] at confirmed
        rcases confirmed.append with before | ⟨s,there,_,confirms,rfl,rfl⟩
        · exact .inl before
        · exact .inr (worth.confirms s there confirms)
      -- Another station of the list has another address.
      have only : ∀ one ∈ (w.put i p).stations, one.phase = .listed → one.addr = other → sta.phase = .listed → one = p.sta := by
        intro one there listed addr'' was
        obtain ⟨j,there⟩ := List.getElem?_of_mem there
        rcases each j one there with ⟨_,same⟩ | ⟨far,there⟩
        · exact same
        · exact absurd (fits.one j i one sta there found listed was addr'' addr) far
      refine ⟨⟨fun one there addr'' given => ?_,fun one there addr'' given => ?_,fun one there addr'' on => ?_,fun one there addr'' on => ?_,
        fun s there da' opens => ?_,fun llid plid confirmed => ?_,fun one there listed addr'' plid confirmed => ?_,
        fun j k a b atJ atK listedA listedB addrA addrB => ?_,wide.positive⟩,fun one there listed addr'' => ?_,fun llid plid confirmed => ?_⟩
      · rcases members one there with before | rfl
        · exact wide.ids one before addr'' given
        · exact worth.ids given
      · rcases members one there with before | rfl
        · exact wide.peers one before addr'' given
        · exact worth.peers given
      · rcases members one there with before | rfl
        · exact wide.active one before addr'' on
        · exact worth.active on
      · rcases members one there with before | rfl
        · exact wide.named one before addr'' on
        · exact worth.named on
      · rw [sent] at there
        rcases mem_append.mp there with before | now
        · exact wide.opens s before da' opens
        · exact worth.opens s now opens
      · rcases mine confirmed with before | ⟨_,_,theirs,_⟩
        · exact wide.confirms llid plid before
        · exact theirs
      · rcases mine confirmed with before | ⟨_,plid',_,was⟩
        · rcases members one there with there | rfl
          · exact wide.same one there listed addr'' plid before
          · exact worth.same listed plid before
        · rw [only one there listed addr'' was]
          exact plid'
      · rcases each j a atJ with ⟨rfl,rfl⟩ | ⟨farJ,oldJ⟩
        · rcases each k b atK with ⟨rfl,rfl⟩ | ⟨farK,oldK⟩
          · rfl
          · exact absurd (fits.one k j b sta oldK found listedB (worth.listed listedA) addrB addr) farK
        · rcases each k b atK with ⟨rfl,rfl⟩ | ⟨_,oldK⟩
          · exact absurd (fits.one j k a sta oldJ found listedA (worth.listed listedB) addrA addr) farJ
          · exact fits.one j k a b oldJ oldK listedA listedB addrA addrB
      · rcases members one there with before | rfl
        · exact .inr (.inr ⟨one,before,listed,addr'',rfl⟩)
        · rcases llid' with zero | new | same
          · exact .inl zero
          · exact .inr (.inl new)
          · exact .inr (.inr ⟨sta,member,worth.listed listed,addr,same.symm⟩)
      · rcases mine confirmed with before | ⟨own,_,_,was⟩
        · exact .inl before
        · refine .inr fun one there listed addr'' => ?_
          rw [only one there listed addr'' was]
          exact own.symm
    -- The link is with somebody else, and so is what is sent.
    have far : p.sta.addr ≠ other := fun same => addr (addr'.symm.trans same)
    have mine : ∀ s ∈ (w.put i p).sent, s.da = other → s ∈ w.sent := by
      intro s there da'
      rw [sent] at there
      rcases mem_append.mp there with before | now
      · exact before
      · exact absurd ((da s now).symm.trans da') addr
    have confirmed : ∀ {llid plid}, Confirmed (w.put i p).sent other llid plid → Confirmed w.sent other llid plid :=
      fun ⟨s,there,da',facts⟩ => ⟨s,mine s there da',da',facts⟩
    have old : ∀ one ∈ (w.put i p).stations, one.addr = other → one ∈ w.stations := by
      intro one there addr''
      rcases members one there with before | rfl
      · exact before
      · exact absurd addr'' far
    refine ⟨⟨fun one there addr'' => wide.ids one (old one there addr'') addr'',fun one there addr'' => wide.peers one (old one there addr'') addr'',
      fun one there addr'' => wide.active one (old one there addr'') addr'',fun one there addr'' => wide.named one (old one there addr'') addr'',
      fun s there da' => wide.opens s (mine s there da') da',fun llid plid given => wide.confirms llid plid (confirmed given),
      fun one there listed addr'' plid given => wide.same one (old one there addr'') listed addr'' plid (confirmed given),
      fun j k a b atJ atK listedA listedB addrA addrB => ?_,wide.positive⟩,
      fun one there listed addr'' => .inr (.inr ⟨one,old one there addr'',listed,addr'',rfl⟩),fun _ _ given => .inl (confirmed given)⟩
    rcases each j a atJ with ⟨rfl,rfl⟩ | ⟨_,atJ⟩
    · exact absurd addrA far
    · rcases each k b atK with ⟨rfl,rfl⟩ | ⟨_,atK⟩
      · exact absurd addrB far
      · exact fits.one j k a b atJ atK listedA listedB addrA addrB

end

end fits

end Mac80211.MeshPlink

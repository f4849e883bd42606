import Mac80211.SkBuff

namespace Mac80211.MeshCsa

def eidChannelSwitch : UInt8 := 37
def eidExtChanswitchAnn : UInt8 := 60
def eidSecondaryChannelOffset : UInt8 := 62
def eidChanSwitchParam : UInt8 := 118

structure Elems where
  chSwitchIe : Option Nat
  extChanswIe : Option Nat
  secChanOffs : Option Nat
  meshChanswParamsIe : Option Nat

def taken (field : Option Nat) (size elen pos : Nat) : Option Nat :=
  if field.isSome then field else if elen ≠ size then none else some pos

def Elems.add (elems : Elems) (id : UInt8) (elen pos : Nat) : Elems :=
  if id = eidChannelSwitch then {elems with chSwitchIe := taken elems.chSwitchIe 3 elen pos}
  else if id = eidExtChanswitchAnn then {elems with extChanswIe := taken elems.extChanswIe 4 elen pos}
  else if id = eidSecondaryChannelOffset then {elems with secChanOffs := taken elems.secChanOffs 1 elen pos}
  else if id = eidChanSwitchParam then {elems with meshChanswParamsIe := taken elems.meshChanswParamsIe 6 elen pos}
  else elems

def parseLoop : Nat → List UInt8 → Nat → Elems → Elems
  | fuel + 1,id :: elen :: rest,pos,elems =>
    if elen.toNat > rest.length then elems
    else parseLoop fuel (rest.drop elen.toNat) (pos + 2 + elen.toNat) (elems.add id elen.toNat (pos + 2))
  | _,_,_,elems => elems

def parseElems (bytes : List UInt8) : Elems := parseLoop bytes.length bytes 0 ⟨none,none,none,none⟩

def load (frame : List UInt8) (i : Nat) : Option UInt8 := frame[i]?
def store (frame : List UInt8) (i : Nat) (v : UInt8) : Option (List UInt8) := if i < frame.length then some (frame.set i v) else none

def baselen : Nat := 26

inductive ChanWidth where
  | w20Noht | w20 | w40 | w80 | w80p80 | w160 | w5 | w10
deriving DecidableEq

inductive ChanType where
  | noHt | ht20 | ht40Minus | ht40Plus
deriving DecidableEq

-- The narrow width is that of a definition without HT.
structure Chandef where
  chan : UInt8
  band : Nat
  type : ChanType
  narrow : Option ChanWidth

structure CsaIe where
  chandef : Chandef
  mode : UInt8
  count : UInt8
  ttl : UInt8
  preValue : UInt16

inductive CsaRole where
  | none | init | repeater

structure IfMesh where
  csaRole : CsaRole
  chswTtl : UInt8
  preValue : UInt16

-- And what cfg80211, the driver and the allocator answer.
structure Sdata where
  addr : EthAddr
  csaActive : Bool
  width : ChanWidth
  band : Nat
  dot11MeshTTL : UInt8
  operatingClassToBand : UInt8 → Option Nat
  getChannel : UInt8 → Nat → Bool
  chandefUsable : Chandef → Bool
  chandefDfsRequired : Chandef → Int
  chandefIdentical : Chandef → Bool
  channelSwitch : Chandef → UInt8 → Bool → IfMesh → Int × IfMesh
  devAllocSkb : Bool

def Sdata.disableHt (s : Sdata) : Bool := s.width = .w20Noht
def Sdata.disable40 (s : Sdata) : Bool := s.width = .w20Noht || s.width = .w20

def loadLe16 (frame : List UInt8) (i : Nat) : Option UInt16 := do
  let low ← load frame i
  let high ← load frame (i + 1)
  pure (low.toUInt16 ||| (high.toUInt16 <<< 8))

def secondaryType (s : Sdata) (offset : Option UInt8) : ChanType :=
  match offset with
  | some 1 => .ht40Plus
  | some 3 => .ht40Minus
  | some _ => .ht20
  | none => if s.disableHt then .noHt else .ht20

def announced (s : Sdata) (frame : List UInt8) (elems : Elems) : Option (Except Int (UInt8 × Nat × UInt8 × UInt8)) :=
  match elems.extChanswIe,elems.chSwitchIe with
  | some e,_ => do
    let mode ← load frame (baselen + e)
    let operatingClass ← load frame (baselen + e + 1)
    let chan ← load frame (baselen + e + 2)
    let count ← load frame (baselen + e + 3)
    match s.operatingClassToBand operatingClass with
    | none => pure (.error (-22))
    | some band => pure (.ok (chan,band,count,mode))
  | none,some e => do
    let mode ← load frame (baselen + e)
    let chan ← load frame (baselen + e + 1)
    let count ← load frame (baselen + e + 2)
    pure (.ok (chan,s.band,count,mode))
  | none,none => some (.error 1)

def meshParams (frame : List UInt8) (e : Nat) : Option (UInt8 × UInt8 × UInt16) := do
  let ttl ← load frame (baselen + e)
  let flags ← load frame (baselen + e + 1)
  let preValue ← loadLe16 frame (baselen + e + 4)
  pure (ttl,flags,preValue)

def announcedParams (frame : List UInt8) (elems : Elems) (mode : UInt8) : Option (UInt8 × UInt8 × UInt16) :=
  match elems.meshChanswParamsIe with
  | some e => meshParams frame e
  | none => some (0,mode,0)

def announcedOffset (s : Sdata) (frame : List UInt8) (elems : Elems) : Option (Option UInt8) :=
  match if s.disable40 then none else elems.secChanOffs with
  | some e => (load frame (baselen + e)).map some
  | none => some none

-- For a mesh, which never has the VHT elements.
def parseChSwitchIe (s : Sdata) (frame : List UInt8) (elems : Elems) : Option (Except Int CsaIe) := do
  let found ← announced s frame elems
  match found with
  | .error err => pure (.error err)
  | .ok (chan,band,count,mode) =>
    let params ← announcedParams frame elems mode
    let offset ← announcedOffset s frame elems
    if !s.getChannel chan band then pure (.error (-22))
    else
      let type := secondaryType s offset
      let narrow := if type = .noHt ∧ (s.width = .w5 ∨ s.width = .w10) then some s.width else none
      pure (.ok ⟨⟨chan,band,type,narrow⟩,params.2.1,count,params.1,params.2.2⟩)

def switchTo (s : Sdata) (ifmsh : IfMesh) (csaIe : CsaIe) (beacon : Bool) : Bool × IfMesh :=
  if !s.chandefUsable csaIe.chandef then (false,ifmsh)
  else if s.chandefDfsRequired csaIe.chandef ≠ 0 then (false,ifmsh)
  else if s.chandefIdentical csaIe.chandef then (true,ifmsh)
  else
    let blockTx := csaIe.mode &&& 0x01 != 0
    let ifmsh := if beacon then {ifmsh with chswTtl := csaIe.ttl - 1} else ifmsh
    if beacon ∧ ifmsh.preValue ≥ csaIe.preValue then (false,ifmsh)
    else
      let ifmsh := if beacon then {ifmsh with preValue := csaIe.preValue} else ifmsh
      if ifmsh.chswTtl ≥ s.dot11MeshTTL then (false,ifmsh)
      else
        let out := s.channelSwitch csaIe.chandef csaIe.count blockTx {ifmsh with csaRole := .repeater}
        (decide (0 ≤ out.1),out.2)

def processChnswitch (s : Sdata) (ifmsh : IfMesh) (frame : List UInt8) (elems : Elems) (beacon : Bool) : Option (Bool × IfMesh) :=
  (parseChSwitchIe s frame elems).map fun parsed =>
    match parsed with
    | .error _ => (false,ifmsh)
    | .ok csaIe => switchTo s ifmsh csaIe beacon

def initiator : UInt8 := 0x02

def readdressed (s : Sdata) (frame : List UInt8) : List UInt8 :=
  frame.take 4 ++ List.replicate 6 0xff ++ s.addr.toList ++ s.addr.toList ++ frame.drop 22

def offsetTtl (frame : List UInt8) : Nat := if frame.length < 42 then 7 else 10

def fwdCsaFrame (s : Sdata) (frame : List UInt8) : Option (Option (List UInt8)) :=
  if !s.devAllocSkb then some none
  else do
    let ttl ← load frame (baselen + offsetTtl frame)
    let flags ← load frame (baselen + offsetTtl frame + 1)
    let lessTtl ← store frame (baselen + offsetTtl frame) (ttl - 1)
    let cleared ← store lessTtl (baselen + offsetTtl frame + 1) (flags &&& ~~~initiator)
    pure (some (readdressed s cleared))

def accept (s : Sdata) (ifmsh : IfMesh) (frame : List UInt8) (elems : Elems) : Option (Bool × IfMesh) :=
  if s.csaActive then some (true,ifmsh) else processChnswitch s ifmsh frame elems false

-- none reads through a null pointer or outside the frame.
def rxCsaFrame (s : Sdata) (ifmsh : IfMesh) (frame : List UInt8) : Option (IfMesh × Option (List UInt8)) := do
  let actionCode ← load frame 25
  if actionCode ≠ 4 then some (ifmsh,none)
  else
    let elems := parseElems (frame.drop baselen)
    let ie ← elems.meshChanswParamsIe
    let params ← meshParams frame ie
    let ifmsh := {ifmsh with chswTtl := params.1 - 1}
    let fwdCsa := decide (ifmsh.chswTtl ≠ 0)
    if ifmsh.preValue ≥ params.2.2 then some (ifmsh,none)
    else
      let out ← accept s {ifmsh with preValue := params.2.2} frame elems
      if out.1 && fwdCsa then (fwdCsaFrame s frame).map fun copy => (out.2,copy)
      else some (out.2,none)

section elements
variable {id : UInt8}

def findElem (id : UInt8) (size : Nat) : Nat → List UInt8 → Nat → Option Nat
  | fuel + 1,i :: elen :: rest,pos =>
    if elen.toNat > rest.length then none
    else if i = id ∧ elen.toNat = size then some (pos + 2)
    else findElem id size fuel (rest.drop elen.toNat) (pos + 2 + elen.toNat)
  | _,_,_ => none

theorem parse_field (field : Elems → Option Nat)
    (add : ∀ elems i elen pos, field (elems.add i elen pos) = if i = id then taken (field elems) size elen pos else field elems)
    (fuel : Nat) (bytes : List UInt8) (pos : Nat) (elems : Elems) :
    field (parseLoop fuel bytes pos elems) = (field elems <|> findElem id size fuel bytes pos) := by
  induction fuel generalizing bytes pos elems with
  | zero => simp [parseLoop,findElem]
  | succ fuel ih =>
    rcases bytes with _ | ⟨i,_ | ⟨elen,_⟩⟩
    · simp [parseLoop,findElem]
    · simp [parseLoop,findElem]
    unfold parseLoop findElem
    split
    · simp
    · rw [ih,add]
      unfold taken
      cases here : field elems with
      | some => by_cases same : i = id <;> simp [same]
      | none =>
        by_cases same : i = id
        · by_cases right : elen.toNat = size <;> simp [same,right]
        · simp [same]

theorem find_inside (found : findElem id size fuel bytes pos = some e) : pos + 2 ≤ e ∧ e + size ≤ pos + bytes.length := by
  induction fuel generalizing bytes pos with
  | zero => cases found
  | succ fuel ih =>
    rcases bytes with _ | ⟨i,_ | ⟨_,_⟩⟩
    · cases found
    · cases found
    unfold findElem at found
    split at found
    · cases found
    · simp only [List.length_cons]
      split at found
      · cases found
        omega
      · have later := ih found
        rw [List.length_drop] at later
        omega

theorem find_kept (found : findElem id size fuel bytes pos = some e) (length : bytes'.length = bytes.length)
    (same : ∀ i, pos + i ≠ e → pos + i ≠ e + 1 → bytes'[i]? = bytes[i]?) : findElem id size fuel bytes' pos = some e := by
  have inside := find_inside found
  induction fuel generalizing bytes bytes' pos with
  | zero => cases found
  | succ fuel ih =>
    rcases bytes with _ | ⟨i,_ | ⟨_,_⟩⟩
    · cases found
    · cases found
    rcases bytes' with _ | ⟨_,_ | ⟨elen',_⟩⟩
    · cases length
    · simp at length
    have first := same 0 (by omega) (by omega)
    have second := same 1 (by omega) (by omega)
    simp only [List.getElem?_cons_zero,List.getElem?_cons_succ,Option.some.injEq] at first second
    subst first second
    simp only [List.length_cons,Nat.add_right_cancel_iff] at length
    unfold findElem at found ⊢
    rw [length]
    split at found
    · cases found
    rename_i fits
    rw [if_neg fits]
    split at found
    · rename_i right
      rw [if_pos right]
      exact found
    · rename_i wrong
      rw [if_neg wrong]
      refine ih found ?_ ?_ (find_inside found)
      · rw [List.length_drop,List.length_drop,length]
      · intro j _ _
        have shifted := same (elen'.toNat + j + 2) (by omega) (by omega)
        simpa only [List.getElem?_cons_succ,List.getElem?_drop] using shifted

structure Inside (frame : List UInt8) (elems : Elems) : Prop where
  chSwitchIe : ∀ e, elems.chSwitchIe = some e → baselen + e + 3 ≤ frame.length
  extChanswIe : ∀ e, elems.extChanswIe = some e → baselen + e + 4 ≤ frame.length
  secChanOffs : ∀ e, elems.secChanOffs = some e → baselen + e + 1 ≤ frame.length
  meshChanswParamsIe : ∀ e, elems.meshChanswParamsIe = some e → baselen + e + 6 ≤ frame.length

theorem find_frame {frame : List UInt8} (long : baselen ≤ frame.length)
    (parsed : field = findElem id size fuel (frame.drop baselen) 0) (e : Nat) (found : field = some e) :
    baselen + e + size ≤ frame.length := by
  have inside := find_inside (parsed.symm.trans found)
  rw [List.length_drop] at inside
  omega

section
variable (bytes : List UInt8)

theorem parse_chSwitch : (parseElems bytes).chSwitchIe = findElem eidChannelSwitch 3 bytes.length bytes 0 := by
  refine (parse_field Elems.chSwitchIe ?_ _ _ _ _).trans rfl
  intro _ i _ _
  unfold Elems.add
  split_ifs <;> rfl

theorem parse_extChansw : (parseElems bytes).extChanswIe = findElem eidExtChanswitchAnn 4 bytes.length bytes 0 := by
  refine (parse_field Elems.extChanswIe ?_ _ _ _ _).trans rfl
  intro _ i _ _
  unfold Elems.add
  split_ifs <;> first | rfl | (subst_vars; contradiction)

theorem parse_secChan : (parseElems bytes).secChanOffs = findElem eidSecondaryChannelOffset 1 bytes.length bytes 0 := by
  refine (parse_field Elems.secChanOffs ?_ _ _ _ _).trans rfl
  intro _ i _ _
  unfold Elems.add
  split_ifs <;> first | rfl | (subst_vars; contradiction)

theorem parse_mesh : (parseElems bytes).meshChanswParamsIe = findElem eidChanSwitchParam 6 bytes.length bytes 0 := by
  refine (parse_field Elems.meshChanswParamsIe ?_ _ _ _ _).trans rfl
  intro _ i _ _
  unfold Elems.add
  split_ifs <;> first | rfl | (subst_vars; contradiction)

end

theorem parse_inside (long : baselen ≤ frame.length) : Inside frame (parseElems (frame.drop baselen)) :=
  ⟨find_frame long (parse_chSwitch _),find_frame long (parse_extChansw _),find_frame long (parse_secChan _),
    find_frame long (parse_mesh _)⟩

end elements

def byteOf (frame : List UInt8) (i : Nat) : UInt8 := frame.getD i 0

section frame

theorem load_inside (inside : i < frame.length) : load frame i = some (byteOf frame i) := by
  simp [load,byteOf,List.getD_eq_getElem?_getD,List.getElem?_eq_getElem inside]

theorem load_outside (outside : frame.length ≤ i) : load frame i = none := List.getElem?_eq_none outside

theorem store_inside (inside : i < frame.length) (v : UInt8) : store frame i v = some (frame.set i v) := if_pos inside

theorem byteOf_set (frame : List UInt8) (i j : Nat) (v : UInt8) (inside : i < frame.length) :
    byteOf (frame.set i v) j = if j = i then v else byteOf frame j := by
  unfold byteOf
  rw [List.getD_eq_getElem?_getD,List.getD_eq_getElem?_getD,List.getElem?_set]
  by_cases same : i = j
  · subst same
    simp [inside]
  · rw [if_neg same,if_neg (Ne.symm same)]

theorem length_readdressed (long : 22 ≤ frame.length) : (readdressed s frame).length = frame.length := by
  simp only [readdressed,List.length_append,List.length_take,List.length_replicate,List.length_drop,Vector.length_toList]
  omega

theorem getElem?_readdressed (long : 22 ≤ frame.length) (late : 22 ≤ i) : (readdressed s frame)[i]? = frame[i]? := by
  have start : (frame.take 4 ++ List.replicate 6 0xff ++ s.addr.toList ++ s.addr.toList).length = 22 := by
    simp only [List.length_append,List.length_take,List.length_replicate,Vector.length_toList]
    omega
  unfold readdressed
  rw [List.getElem?_append_right (by omega),start,List.getElem?_drop]
  congr 1
  omega

def relayed (frame : List UInt8) : List UInt8 :=
  (frame.set (baselen + offsetTtl frame) (byteOf frame (baselen + offsetTtl frame) - 1)).set (baselen + offsetTtl frame + 1)
    (byteOf frame (baselen + offsetTtl frame + 1) &&& ~~~initiator)

theorem fwd_inside (alloc : s.devAllocSkb = true) (inside : baselen + offsetTtl frame + 1 < frame.length) :
    fwdCsaFrame s frame = some (some (readdressed s (relayed frame))) := by
  unfold fwdCsaFrame relayed
  rw [alloc,load_inside (Nat.lt_of_succ_lt inside),load_inside inside]
  simp only [Bool.not_true,Bool.false_eq_true,if_false,Option.bind_eq_bind,Option.bind_some]
  rw [store_inside (Nat.lt_of_succ_lt inside),Option.bind_some,store_inside (by rw [List.length_set]; exact inside),Option.bind_some]
  rfl

theorem fwd_outside (alloc : s.devAllocSkb = true) (outside : frame.length ≤ baselen + offsetTtl frame + 1) :
    fwdCsaFrame s frame = none := by
  unfold fwdCsaFrame
  rw [alloc,load_outside outside]
  cases load frame (baselen + offsetTtl frame) <;> rfl

theorem fwd_unallocated (alloc : s.devAllocSkb = false) : fwdCsaFrame s frame = some none := by
  unfold fwdCsaFrame
  rw [alloc]
  rfl

def ttlOf (frame : List UInt8) (e : Nat) : UInt8 := byteOf frame (baselen + e)
def preValueOf (frame : List UInt8) (e : Nat) : UInt16 :=
  (byteOf frame (baselen + e + 4)).toUInt16 ||| ((byteOf frame (baselen + e + 5)).toUInt16 <<< 8)

theorem meshParams_inside (inside : baselen + e + 6 ≤ frame.length) :
    meshParams frame e = some (ttlOf frame e,byteOf frame (baselen + e + 1),preValueOf frame e) := by
  have each : ∀ j, j < 6 → load frame (baselen + e + j) = some (byteOf frame (baselen + e + j)) :=
    fun j less => load_inside (by omega)
  unfold meshParams loadLe16
  rw [show load frame (baselen + e) = _ from each 0 (by omega),each 1 (by omega),each 4 (by omega),
    show load frame (baselen + e + 4 + 1) = _ from each 5 (by omega)]
  rfl

section
variable (inside : Inside frame elems)
include inside

theorem announced_inside : ∃ found, announced s frame elems = some found := by
  unfold announced
  cases ext : elems.extChanswIe with
  | some e =>
    have within := inside.extChanswIe e ext
    have each : ∀ j, j < 4 → load frame (baselen + e + j) = some (byteOf frame (baselen + e + j)) :=
      fun j less => load_inside (by omega)
    dsimp only
    rw [show load frame (baselen + e) = _ from each 0 (by omega),each 1 (by omega),each 2 (by omega),each 3 (by omega)]
    simp only [Option.bind_eq_bind,Option.bind_some]
    split <;> exact ⟨_,rfl⟩
  | none =>
    cases ch : elems.chSwitchIe with
    | some e =>
      have within := inside.chSwitchIe e ch
      have each : ∀ j, j < 3 → load frame (baselen + e + j) = some (byteOf frame (baselen + e + j)) :=
        fun j less => load_inside (by omega)
      dsimp only
      rw [show load frame (baselen + e) = _ from each 0 (by omega),each 1 (by omega),each 2 (by omega)]
      exact ⟨_,rfl⟩
    | none => exact ⟨_,rfl⟩

theorem parseChSwitchIe_inside : ∃ parsed, parseChSwitchIe s frame elems = some parsed := by
  have params : ∀ mode, ∃ got, announcedParams frame elems mode = some got := by
    intro mode
    unfold announcedParams
    cases mesh : elems.meshChanswParamsIe with
    | some e => exact ⟨_,meshParams_inside (inside.meshChanswParamsIe e mesh)⟩
    | none => exact ⟨_,rfl⟩
  have offset : ∃ got, announcedOffset s frame elems = some got := by
    unfold announcedOffset
    cases s.disable40 with
    | true => exact ⟨_,rfl⟩
    | false =>
      cases sec : elems.secChanOffs with
      | some e =>
        have within := inside.secChanOffs e sec
        have here : load frame (baselen + e) = some (byteOf frame (baselen + e)) := load_inside (by omega)
        simp [here]
      | none => exact ⟨_,rfl⟩
  obtain ⟨found,announced⟩ := announced_inside (s := s) inside
  obtain ⟨offset,read⟩ := offset
  unfold parseChSwitchIe
  rw [announced]
  cases found with
  | error => exact ⟨_,rfl⟩
  | ok channel =>
    obtain ⟨_,_,_,mode⟩ := channel
    obtain ⟨_,params⟩ := params mode
    simp only [Option.bind_eq_bind,Option.bind_some,params,read]
    split <;> exact ⟨_,rfl⟩

theorem accept_inside (ifmsh : IfMesh) : ∃ out, accept s ifmsh frame elems = some out := by
  unfold accept processChnswitch
  cases s.csaActive with
  | true => exact ⟨_,rfl⟩
  | false =>
    obtain ⟨_,here⟩ := parseChSwitchIe_inside (s := s) inside
    rw [here]
    exact ⟨_,rfl⟩

end

end frame

end Mac80211.MeshCsa

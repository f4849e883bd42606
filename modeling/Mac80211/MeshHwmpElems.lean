import Mac80211.MeshHwmpFresh
import Mac80211.Tlv

namespace Mac80211.MeshHwmp
open Ieee80211 MeshPathtbl
open RxReorder (Jiffies)
open Tlv (put store storeAll storeAll_replaces load load_nth load_outside leBytes leValue leBytes_length leValue_leBytes)

def eidRann : UInt8 := 126
def eidPreq : UInt8 := 130
def eidPrep : UInt8 := 131
def eidPerr : UInt8 := 132

def addrBytes (addr : EthAddr) : List UInt8 := addr.toList
def toAddr (bytes : List UInt8) : EthAddr := Vector.ofFn fun i => bytes.getD i 0
def le32 (v : UInt32) : List UInt8 := leBytes 4 v.toNat

-- A read that leaves the element is none.
def u8At (x : List UInt8) (i : Nat) : Option UInt8 := (load x i 1).map fun bytes => bytes.getD 0 0
def u32FieldGet (x : List UInt8) (offset : Nat) (ae : Bool) : Option UInt32 :=
  (load x (if ae then offset + 6 else offset) 4).map fun bytes => UInt32.ofNat (leValue bytes)
def u16FieldGet (x : List UInt8) (offset : Nat) (ae : Bool) : Option UInt16 :=
  (load x (if ae then offset + 6 else offset) 2).map fun bytes => UInt16.ofNat (leValue bytes)
def addrAt (x : List UInt8) (i : Nat) : Option EthAddr := (load x i 6).map toAddr

def aeF : UInt8 := 0x40
def aeFSet (x : List UInt8) : Option Bool := (u8At x 0).map fun flags => flags &&& aeF != 0

-- PREQ_IE_*, with the flag that moves the later fields.
def preqIe (x : List UInt8) : Option Preq := do
  let ae ← aeFSet x
  let flags ← u8At x 0
  let hopcount ← u8At x 1
  let ttl ← u8At x 2
  let preqId ← u32FieldGet x 3 false
  let origAddr ← addrAt x 7
  let origSn ← u32FieldGet x 13 false
  let lifetime ← u32FieldGet x 17 ae
  let metric ← u32FieldGet x 21 ae
  let targetF ← u8At x (if ae then 32 else 26)
  let targetAddr ← addrAt x (if ae then 33 else 27)
  let targetSn ← u32FieldGet x 33 ae
  some ⟨flags,hopcount,ttl,preqId,origAddr,origSn,lifetime,metric,targetF,targetAddr,targetSn⟩

def prepIe (x : List UInt8) : Option Prep := do
  let ae ← aeFSet x
  let flags ← u8At x 0
  let hopcount ← u8At x 1
  let ttl ← u8At x 2
  let targetAddr ← addrAt x 3
  let targetSn ← u32FieldGet x 9 false
  let lifetime ← u32FieldGet x 13 ae
  let metric ← u32FieldGet x 17 ae
  let origAddr ← addrAt x (if ae then 27 else 21)
  let origSn ← u32FieldGet x 27 ae
  some ⟨flags,hopcount,ttl,targetAddr,targetSn,lifetime,metric,origAddr,origSn⟩

def perrIe (x : List UInt8) : Option Perr := do
  let ttl ← u8At x 0
  let targetAddr ← addrAt x 3
  let targetSn ← u32FieldGet x 9 false
  let rcode ← u16FieldGet x 13 false
  some ⟨ttl,targetAddr,targetSn,rcode⟩

def rannIe (x : List UInt8) : Option Rann := do
  let flags ← u8At x 0
  let hopcount ← u8At x 1
  let ttl ← u8At x 2
  let addr ← addrAt x 3
  let seq ← u32FieldGet x 9 false
  let interval ← u32FieldGet x 13 false
  let metric ← u32FieldGet x 17 false
  some ⟨flags,hopcount,ttl,addr,seq,interval,metric⟩

def rannLen : Nat := 21

structure RawElems where
  preq : Option (List UInt8)
  prep : Option (List UInt8)
  perr : Option (List UInt8)
  rann : Option (List UInt8)

def firstElement (es : List (UInt8 × List UInt8)) (id : UInt8) (least : Nat) : Option (List UInt8) :=
  (es.find? fun e => e.1 == id && decide (least ≤ e.2.length)).map Prod.snd

def parseElems (bytes : List UInt8) : RawElems :=
  let es := Tlv.elements bytes.length bytes
  ⟨firstElement es eidPreq 0,firstElement es eidPrep 0,firstElement es eidPerr 0,firstElement es eidRann rannLen⟩

def baselen : Nat := 26

inductive FrameType where
  | preq | prep | perr | rann
deriving DecidableEq

structure TxArgs where
  flags : UInt8
  origAddr : EthAddr
  origSn : UInt32
  targetFlags : UInt8
  target : EthAddr
  targetSn : UInt32
  da : EthAddr
  hopCount : UInt8
  ttl : UInt8
  lifetime : UInt32
  metric : UInt32
  preqId : UInt32

def categoryMeshAction : UInt8 := 13
def hwmpPathSelection : UInt8 := 1

def pathSelHdr (vifAddr da : EthAddr) : List UInt8 :=
  [0xd0,0x00,0,0] ++ addrBytes da ++ addrBytes vifAddr ++ addrBytes vifAddr ++ [0,0,categoryMeshAction,hwmpPathSelection]

def elementOf : FrameType → Option (UInt8 × UInt8)
  | .preq => some (eidPreq,37)
  | .prep => some (eidPrep,31)
  | .rann => some (eidRann,21)
  | .perr => none

-- In the order of the writes.
def pieces (a : TxArgs) (action : FrameType) : List (List UInt8) :=
  [[a.flags],[a.hopCount],[a.ttl]] ++
    (if action = .prep then [addrBytes a.target,le32 a.targetSn]
      else (if action = .preq then [le32 a.preqId] else []) ++ [addrBytes a.origAddr,le32 a.origSn]) ++
    [le32 a.lifetime,le32 a.metric] ++
    (if action = .preq then [[1],[a.targetFlags],addrBytes a.target,le32 a.targetSn]
      else if action = .prep then [addrBytes a.origAddr,le32 a.origSn]
      else [])

-- none is a write outside of the frame.
def meshPathSelFrameTx (action : FrameType) (a : TxArgs) (vifAddr : EthAddr) (fresh : Nat → UInt8) : Option (Except Errno (List UInt8)) :=
  let hdr := pathSelHdr vifAddr a.da
  match elementOf action with
  | none => some (.error .notsupp)
  | some (id,ieLen) => (storeAll (put fresh hdr (2 + ieLen.toNat)) hdr.length ([id] :: [ieLen] :: pieces a action)).map .ok

section written

theorem addrBytes_length (addr : EthAddr) : (addrBytes addr).length = 6 := Vector.length_toList

theorem toAddr_bytes (addr : EthAddr) : toAddr (addrBytes addr) = addr := by
  apply Vector.ext
  intro i _
  simp [toAddr,addrBytes]

theorem le32_length (v : UInt32) : (le32 v).length = 4 := leBytes_length 4 v.toNat

theorem le32_value (v : UInt32) : UInt32.ofNat (leValue (le32 v)) = v := by
  have whole : leValue (le32 v) = v.toNat := (leValue_leBytes 4 v.toNat).trans (Nat.mod_eq_of_lt v.toNat_lt)
  rw [whole,UInt32.ofNat_toNat]

theorem hdr_length (vifAddr da : EthAddr) : (pathSelHdr vifAddr da).length = baselen := by
  simp [pathSelHdr,addrBytes_length,baselen]

theorem tx_frame {id : UInt8} (element : elementOf action = some (id,ieLen))
    (fits : (pieces a action).flatten.length = ieLen.toNat) (fresh : Nat → UInt8) :
    meshPathSelFrameTx action a vifAddr fresh = some (.ok (pathSelHdr vifAddr a.da ++ Tlv.encode (id,(pieces a action).flatten))) := by
  have room : ((List.range (2 + ieLen.toNat)).map fresh).length = ([id] :: [ieLen] :: pieces a action).flatten.length := by
    simp only [List.length_map,List.length_range,List.flatten_cons,List.length_append,List.length_singleton]
    omega
  have written := storeAll_replaces (pathSelHdr vifAddr a.da) ((List.range (2 + ieLen.toNat)).map fresh) []
    ([id] :: [ieLen] :: pieces a action) rfl room
  rw [List.append_nil,List.append_nil] at written
  unfold meshPathSelFrameTx
  rw [element]
  dsimp only
  unfold put
  rw [written]
  unfold Tlv.encode
  rw [fits,UInt8.ofNat_toNat]
  rfl

theorem preq_length : (pieces a .preq).flatten.length = 37 := by
  simp [pieces,addrBytes_length,le32_length]

theorem prep_length : (pieces a .prep).flatten.length = 31 := by
  simp [pieces,addrBytes_length,le32_length]

section
variable (ps : List (List UInt8)) (k : Nat)

theorem u8At_piece (found : ps[k]? = some [v])
    (place : (ps.take k).flatten.length = pos) : u8At ps.flatten pos = some v := by
  have read : load ps.flatten pos 1 = some [v] := load_nth ps found place rfl
  unfold u8At
  rw [read]
  rfl

theorem u32At_piece (found : ps[k]? = some (le32 v))
    (place : (ps.take k).flatten.length = pos) : u32FieldGet ps.flatten pos false = some v := by
  unfold u32FieldGet
  rw [if_neg Bool.false_ne_true,load_nth ps found place (le32_length v)]
  exact congrArg some (le32_value v)

theorem addrAt_piece (found : ps[k]? = some (addrBytes addr))
    (place : (ps.take k).flatten.length = pos) : addrAt ps.flatten pos = some addr := by
  unfold addrAt
  rw [load_nth ps found place (addrBytes_length addr)]
  exact congrArg some (toAddr_bytes addr)

end

theorem ae_piece (ps : List (List UInt8)) (found : ps[0]? = some [flags]) (plain : flags &&& aeF = 0) :
    aeFSet ps.flatten = some false := by
  have read : u8At ps.flatten 0 = some flags := u8At_piece ps 0 found rfl
  unfold aeFSet
  rw [read,Option.map_some,plain]
  rfl

theorem preq_read (a : TxArgs) (plain : a.flags &&& aeF = 0) : preqIe (pieces a .preq).flatten =
    some ⟨a.flags,a.hopCount,a.ttl,a.preqId,a.origAddr,a.origSn,a.lifetime,a.metric,a.targetFlags,a.target,a.targetSn⟩ := by
  have widths : (pieces a .preq).map List.length = [1,1,1,4,6,4,4,4,1,1,6,4] := by
    simp [pieces,addrBytes_length,le32_length]
  have before : ∀ k, ((pieces a .preq).take k).flatten.length = ([1,1,1,4,6,4,4,4,1,1,6,4].take k).sum := by
    intro k
    rw [List.length_flatten,List.map_take,widths]
  have ae : aeFSet (pieces a .preq).flatten = some false := ae_piece _ rfl plain
  have flags : u8At (pieces a .preq).flatten 0 = some a.flags := u8At_piece _ 0 rfl (before 0)
  have hopcount : u8At (pieces a .preq).flatten 1 = some a.hopCount := u8At_piece _ 1 rfl (before 1)
  have ttl : u8At (pieces a .preq).flatten 2 = some a.ttl := u8At_piece _ 2 rfl (before 2)
  have preqId : u32FieldGet (pieces a .preq).flatten 3 false = some a.preqId := u32At_piece _ 3 rfl (before 3)
  have origAddr : addrAt (pieces a .preq).flatten 7 = some a.origAddr := addrAt_piece _ 4 rfl (before 4)
  have origSn : u32FieldGet (pieces a .preq).flatten 13 false = some a.origSn := u32At_piece _ 5 rfl (before 5)
  have lifetime : u32FieldGet (pieces a .preq).flatten 17 false = some a.lifetime := u32At_piece _ 6 rfl (before 6)
  have metric : u32FieldGet (pieces a .preq).flatten 21 false = some a.metric := u32At_piece _ 7 rfl (before 7)
  have targetF : u8At (pieces a .preq).flatten 26 = some a.targetFlags := u8At_piece _ 9 rfl (before 9)
  have target : addrAt (pieces a .preq).flatten 27 = some a.target := addrAt_piece _ 10 rfl (before 10)
  have targetSn : u32FieldGet (pieces a .preq).flatten 33 false = some a.targetSn := u32At_piece _ 11 rfl (before 11)
  simp [preqIe,ae,flags,hopcount,ttl,preqId,origAddr,origSn,lifetime,metric,targetF,target,targetSn]

theorem prep_read (a : TxArgs) (plain : a.flags &&& aeF = 0) : prepIe (pieces a .prep).flatten =
    some ⟨a.flags,a.hopCount,a.ttl,a.target,a.targetSn,a.lifetime,a.metric,a.origAddr,a.origSn⟩ := by
  have widths : (pieces a .prep).map List.length = [1,1,1,6,4,4,4,6,4] := by
    simp [pieces,addrBytes_length,le32_length]
  have before : ∀ k, ((pieces a .prep).take k).flatten.length = ([1,1,1,6,4,4,4,6,4].take k).sum := by
    intro k
    rw [List.length_flatten,List.map_take,widths]
  have ae : aeFSet (pieces a .prep).flatten = some false := ae_piece _ rfl plain
  have flags : u8At (pieces a .prep).flatten 0 = some a.flags := u8At_piece _ 0 rfl (before 0)
  have hopcount : u8At (pieces a .prep).flatten 1 = some a.hopCount := u8At_piece _ 1 rfl (before 1)
  have ttl : u8At (pieces a .prep).flatten 2 = some a.ttl := u8At_piece _ 2 rfl (before 2)
  have target : addrAt (pieces a .prep).flatten 3 = some a.target := addrAt_piece _ 3 rfl (before 3)
  have targetSn : u32FieldGet (pieces a .prep).flatten 9 false = some a.targetSn := u32At_piece _ 4 rfl (before 4)
  have lifetime : u32FieldGet (pieces a .prep).flatten 13 false = some a.lifetime := u32At_piece _ 5 rfl (before 5)
  have metric : u32FieldGet (pieces a .prep).flatten 17 false = some a.metric := u32At_piece _ 6 rfl (before 6)
  have origAddr : addrAt (pieces a .prep).flatten 21 = some a.origAddr := addrAt_piece _ 7 rfl (before 7)
  have origSn : u32FieldGet (pieces a .prep).flatten 27 false = some a.origSn := u32At_piece _ 8 rfl (before 8)
  simp [prepIe,ae,flags,hopcount,ttl,target,targetSn,lifetime,metric,origAddr,origSn]

end written

def frameElems (frame : List UInt8) : Option RawElems := if frame.length < baselen then none else some (parseElems (frame.drop baselen))

section roundTrip

theorem frameElems_one {id : UInt8} (short : data.length < 256) (vifAddr da : EthAddr) :
    frameElems (pathSelHdr vifAddr da ++ Tlv.encode (id,data)) =
      some ⟨firstElement [(id,data)] eidPreq 0,firstElement [(id,data)] eidPrep 0,firstElement [(id,data)] eidPerr 0,
        firstElement [(id,data)] eidRann rannLen⟩ := by
  have body : (pathSelHdr vifAddr da ++ Tlv.encode (id,data)).drop baselen = Tlv.encodeAll [(id,data)] := by
    rw [← hdr_length vifAddr da,List.drop_left]
    simp [Tlv.encodeAll]
  have one : Tlv.Short [(id,data)] := by
    intro e member
    cases List.mem_singleton.mp member
    exact short
  have found : Tlv.elements (Tlv.encodeAll [(id,data)]).length (Tlv.encodeAll [(id,data)]) = [(id,data)] :=
    Tlv.elements_encodeAll _ one (by simp [Tlv.encodeAll,Tlv.encode])
  unfold frameElems
  rw [if_neg (by rw [List.length_append,hdr_length]; omega),body]
  unfold parseElems
  rw [found]

theorem path_sel_round_trip (a : TxArgs) (vifAddr : EthAddr) (fresh : Nat → UInt8) (plain : a.flags &&& aeF = 0) :
    (∃ frame x, meshPathSelFrameTx .preq a vifAddr fresh = some (.ok frame) ∧ frameElems frame = some ⟨some x,none,none,none⟩ ∧
      x.length = 37 ∧ preqIe x =
        some ⟨a.flags,a.hopCount,a.ttl,a.preqId,a.origAddr,a.origSn,a.lifetime,a.metric,a.targetFlags,a.target,a.targetSn⟩) ∧
    (∃ frame x, meshPathSelFrameTx .prep a vifAddr fresh = some (.ok frame) ∧ frameElems frame = some ⟨none,some x,none,none⟩ ∧
      x.length = 31 ∧ prepIe x =
        some ⟨a.flags,a.hopCount,a.ttl,a.target,a.targetSn,a.lifetime,a.metric,a.origAddr,a.origSn⟩) := by
  refine ⟨⟨_,_,tx_frame rfl preq_length fresh,?_,preq_length,preq_read a plain⟩,
    ⟨_,_,tx_frame rfl prep_length fresh,?_,prep_length,prep_read a plain⟩⟩
  · rw [frameElems_one (by rw [preq_length]; decide)]
    rfl
  · rw [frameElems_one (by rw [prep_length]; decide)]
    rfl

def sampleTx : TxArgs := ⟨0,broadcastAddr,7,1,macAddr 2 0 0 0 0 9,3,broadcastAddr,0,31,4882,0,12⟩

theorem path_sel_round_trip_sample :
    (∃ frame x, meshPathSelFrameTx .preq sampleTx (macAddr 2 0 0 0 0 1) (fun _ => 0) = some (.ok frame) ∧
      frameElems frame = some ⟨some x,none,none,none⟩ ∧ x.length = 37 ∧ preqIe x =
        some ⟨0,0,31,12,broadcastAddr,7,4882,0,1,macAddr 2 0 0 0 0 9,3⟩) ∧
    (∃ frame x, meshPathSelFrameTx .prep sampleTx (macAddr 2 0 0 0 0 1) (fun _ => 0) = some (.ok frame) ∧
      frameElems frame = some ⟨none,some x,none,none⟩ ∧ x.length = 31 ∧ prepIe x =
        some ⟨0,0,31,macAddr 2 0 0 0 0 9,3,4882,0,broadcastAddr,7⟩) :=
  path_sel_round_trip sampleTx (macAddr 2 0 0 0 0 1) (fun _ => 0) (by decide)

end roundTrip

-- A PREQ or a PREP of another length ends the work on the frame.
inductive Handler where
  | preq (x : List UInt8)
  | prep (x : List UInt8)
  | perr (x : List UInt8)
  | rann (x : List UInt8)

def checked (element : Option (List UInt8)) (supported : Nat → Bool) (handler : List UInt8 → Handler) (rest : List Handler) :
    List Handler :=
  match element with
  | none => rest
  | some x => if supported x.length then handler x :: rest else []

def handlers (elems : RawElems) : List Handler :=
  checked elems.preq (· == 37) .preq
    (checked elems.prep (· == 31) .prep
      (checked elems.perr (· == 15) .perr
        (checked elems.rann (fun _ => true) .rann [])))

def preqRoute (x : List UInt8) : Option RouteIe := do
  let ae ← aeFSet x
  let origAddr ← addrAt x 7
  let origSn ← u32FieldGet x 13 false
  let lifetime ← u32FieldGet x 17 ae
  let metric ← u32FieldGet x 21 ae
  some (.preq ⟨0,0,0,0,origAddr,origSn,lifetime,metric,0,origAddr,0⟩)

def prepRoute (x : List UInt8) : Option RouteIe := do
  let ae ← aeFSet x
  let targetAddr ← addrAt x 3
  let targetSn ← u32FieldGet x 9 false
  let lifetime ← u32FieldGet x 13 ae
  let metric ← u32FieldGet x 17 ae
  some (.prep ⟨0,0,0,targetAddr,targetSn,lifetime,metric,targetAddr,0⟩)

section bounds
variable (jhash : UInt32 → UInt32 → UInt32 → UInt32)

def World.hwmpRouteInfoGet (w : World) (s : Nat) (iface : Iface) (sa : EthAddr) (ie : RouteIe) (i : Inputs) : World × UInt32 :=
  match w.routeInfo jhash s iface sa ie i.metric i.allocPath i.allocNode with
  | (w,[.transmitter ie sta lastHopMetric newMetric expTime process]) =>
    match w.transmitterInfo jhash s iface sa ie sta lastHopMetric newMetric expTime process i.allocPath i.allocNode with
    | (w,[.frame _ metric]) => (w,metric)
    | (w,_) => (w,0)
  | (w,_) => (w,0)

-- none is a read outside. What is read on some path only lies before what is always read.
def World.handle (w : World) (s : Nat) (iface : Iface) (ifmsh : IfMesh) (sa : EthAddr) (i : Inputs) : Handler → Option World
  | .preq x => (preqRoute x).bind fun ie =>
    let routed := w.hwmpRouteInfoGet jhash s iface sa ie i
    if routed.2 = 0 then some routed.1
    else (preqIe x).map fun preq => routed.1.preqFrameProcess jhash s iface ifmsh sa preq routed.2 i.allocGate
  | .prep x => (prepRoute x).bind fun ie =>
    let routed := w.hwmpRouteInfoGet jhash s iface sa ie i
    if routed.2 = 0 then some routed.1
    else (prepIe x).map fun prep => routed.1.prepFrameProcess jhash s iface ifmsh prep routed.2
  | .perr x => (perrIe x).map fun perr => w.perrFrameProcess jhash s ifmsh sa perr
  | .rann x => (rannIe x).map fun rann =>
    w.rannFrameProcess jhash s iface ifmsh sa rann i.metric i.allocPath i.allocNode i.allocPreq i.allocGate

def saOf (frame : List UInt8) : EthAddr := toAddr ((frame.drop 10).take 6)

def World.accepts (w : World) (s : Nat) (frame : List UInt8) : Bool :=
  ((w.staInfoGet s (saOf frame)).bind fun i => w.stas[i]?).any Sta.estab

def World.Unicast (w : World) : Prop :=
  (∀ m ∈ w.tbl.paths, isMulticastEtherAddr m.dst = false) ∧ ∀ sta ∈ w.stas, isMulticastEtherAddr sta.addr = false

def InBounds (frame : List UInt8) : Prop :=
  ∀ elems, frameElems frame = some elems → ∀ h ∈ handlers elems, ∀ (w : World) s iface ifmsh i, w.Unicast →
    w.accepts s frame = true → w.handle jhash s iface ifmsh (saOf frame) i h ≠ none

def Handler.extended : Handler → Bool
  | .preq x => (aeFSet x).getD false
  | .prep x => (aeFSet x).getD false
  | .perr _ => false
  | .rann _ => false

def Handler.origin : Handler → Option EthAddr
  | .preq x => addrAt x 7
  | .prep x => addrAt x 3
  | .perr _ => none
  | .rann _ => none

def Handler.Checked : Handler → Prop
  | .preq x => x.length = 37
  | .prep x => x.length = 31
  | .perr x => x.length = 15
  | .rann x => rannLen ≤ x.length

variable {jhash}

theorem firstElement_least {id : UInt8} (found : firstElement es id least = some x) : least ≤ x.length := by
  obtain ⟨e,first,rfl⟩ := Option.map_eq_some_iff.mp found
  have wanted := List.find?_some first
  exact of_decide_eq_true (Bool.and_eq_true_iff.mp wanted).2

theorem mem_checked
    (member : h ∈ checked element supported handler rest) :
    (∃ x, element = some x ∧ supported x.length = true ∧ h = handler x) ∨ h ∈ rest := by
  unfold checked at member
  split at member
  · exact .inr member
  · rename_i x
    split at member
    · rename_i length
      cases List.mem_cons.mp member with
      | inl first => exact .inl ⟨x,rfl,length,first⟩
      | inr later => exact .inr later
    · cases member

theorem handlers_checked (parsed : frameElems frame = some elems) (member : h ∈ handlers elems) : h.Checked := by
  have rannChecked : ∀ x, elems.rann = some x → rannLen ≤ x.length := by
    unfold frameElems at parsed
    split at parsed
    · cases parsed
    · cases parsed
      intro x found
      exact firstElement_least found
  rcases mem_checked member with ⟨x,-,length,rfl⟩ | member
  · exact beq_iff_eq.mp length
  rcases mem_checked member with ⟨x,-,length,rfl⟩ | member
  · exact beq_iff_eq.mp length
  rcases mem_checked member with ⟨x,-,length,rfl⟩ | member
  · exact beq_iff_eq.mp length
  rcases mem_checked member with ⟨x,found,-,rfl⟩ | member
  · exact rannChecked x found
  · cases member

theorem preq_inside (length : x.length = 37) (plain : aeFSet x = some false) :
    (∃ ie, preqRoute x = some ie) ∧ ∃ preq, preqIe x = some preq := by
  constructor
  · simp [preqRoute,plain,u32FieldGet,addrAt,Tlv.load_inside,length]
  · simp [preqIe,plain,u8At,u32FieldGet,addrAt,Tlv.load_inside,length]

theorem prep_inside (length : x.length = 31) (plain : aeFSet x = some false) :
    (∃ ie, prepRoute x = some ie) ∧ ∃ prep, prepIe x = some prep := by
  constructor
  · simp [prepRoute,plain,u32FieldGet,addrAt,Tlv.load_inside,length]
  · simp [prepIe,plain,u8At,u32FieldGet,addrAt,Tlv.load_inside,length]

theorem perr_inside (length : x.length = 15) : ∃ perr, perrIe x = some perr := by
  simp [perrIe,u8At,u32FieldGet,u16FieldGet,addrAt,Tlv.load_inside,length]

theorem rann_inside (length : rannLen ≤ x.length) : ∃ rann, rannIe x = some rann := by
  have within : ∀ pos n, pos + n ≤ 21 → load x pos n = some ((x.drop pos).take n) :=
    fun pos n small => Tlv.load_inside (Nat.le_trans small length)
  simp [rannIe,u8At,u32FieldGet,addrAt,within]

-- The fields that the flag moves are read behind the end.
theorem preq_outside (length : x.length = 37) (ae : aeFSet x = some true) :
    (∃ ie, preqRoute x = some ie ∧ addrAt x 7 = some ie.origAddr) ∧ preqIe x = none := by
  constructor
  · simp [preqRoute,ae,u32FieldGet,addrAt,Tlv.load_inside,length,RouteIe.origAddr]
  · simp [preqIe,ae,u8At,u32FieldGet,addrAt,Tlv.load_inside,load_outside,length]

theorem prep_outside (length : x.length = 31) (ae : aeFSet x = some true) :
    (∃ ie, prepRoute x = some ie ∧ addrAt x 3 = some ie.origAddr) ∧ prepIe x = none := by
  constructor
  · simp [prepRoute,ae,u32FieldGet,addrAt,Tlv.load_inside,length,RouteIe.origAddr]
  · simp [prepIe,ae,u8At,u32FieldGet,addrAt,Tlv.load_inside,load_outside,length]

theorem aeFSet_inside (some_bytes : 0 < x.length) : ∃ ae, aeFSet x = some ae := by
  unfold aeFSet u8At
  rw [Tlv.load_inside some_bytes]
  exact ⟨_,rfl⟩

theorem plain_flag (some_bytes : 0 < x.length) (plain : (aeFSet x).getD false = false) : aeFSet x = some false := by
  obtain ⟨_,flag⟩ := aeFSet_inside some_bytes
  rw [flag] at plain ⊢
  exact congrArg some plain

theorem extended_flag (extended : (aeFSet x).getD false = true) : aeFSet x = some true := by
  cases flag : aeFSet x with
  | none =>
    rw [flag] at extended
    cases extended
  | some =>
    rw [flag] at extended
    exact congrArg some extended

theorem handle_inside (fits : h.Checked) (plain : h.extended = false) (w : World) (s : Nat) (iface : Iface) (ifmsh : IfMesh)
    (sa : EthAddr) (i : Inputs) : w.handle jhash s iface ifmsh sa i h ≠ none := by
  cases h with
  | preq x =>
    have unset : aeFSet x = some false := plain_flag (by rw [show x.length = 37 from fits]; decide) plain
    obtain ⟨⟨_,route⟩,_,read⟩ := preq_inside fits unset
    unfold World.handle
    dsimp only
    rw [route,Option.bind_some,read]
    split <;> nofun
  | prep x =>
    have unset : aeFSet x = some false := plain_flag (by rw [show x.length = 31 from fits]; decide) plain
    obtain ⟨⟨_,route⟩,_,read⟩ := prep_inside fits unset
    unfold World.handle
    dsimp only
    rw [route,Option.bind_some,read]
    split <;> nofun
  | perr =>
    obtain ⟨_,read⟩ := perr_inside fits
    unfold World.handle
    dsimp only
    rw [read]
    nofun
  | rann =>
    obtain ⟨_,read⟩ := rann_inside fits
    unfold World.handle
    dsimp only
    rw [read]
    nofun

theorem group_lookup {w : World} (unicast : w.Unicast) (s : Nat) (iface : Iface)
    (group : isMulticastEtherAddr dst = true) (allocPath allocNode : Bool)
    (looked : w.lookupOrAdd jhash s iface dst allocPath allocNode = (w',out)) : out = .failed := by
  unfold World.lookupOrAdd at looked
  split at looked
  · rename_i next p found
    obtain ⟨m,stored,same,-⟩ := lookup_found found
    have single := unicast.1 m (List.mem_of_getElem? stored)
    rw [same,group] at single
    cases single
  rename_i next missing
  have refused : ∃ e, (next.tbl.meshPathAdd jhash s iface dst allocPath allocNode).2 = .error e := by
    unfold MeshPathtbl.World.meshPathAdd
    split <;> exact ⟨_,rfl⟩
  obtain ⟨e,refused⟩ := refused
  unfold World.meshPathAdd at looked
  dsimp only at looked
  rw [refused] at looked
  cases looked
  rfl

variable (jhash) in
theorem transmitter_silent (w : World) (s : Nat) (iface : Iface) (sa : EthAddr) (ie : RouteIe) (sta : Nat) (lastHopMetric newMetric : UInt32)
    (expTime : Jiffies) (allocPath allocNode : Bool) :
    (w.transmitterInfo jhash s iface sa ie sta lastHopMetric newMetric expTime false allocPath allocNode).2 = [] := by
  unfold World.transmitterInfo
  dsimp only
  split
  · rfl
  · split
    · rfl
    · rfl
    · split <;> rfl

theorem group_unrouted {w : World} (unicast : w.Unicast) (s : Nat) (iface : Iface) (sa : EthAddr) (i : Inputs)
    (group : isMulticastEtherAddr ie.origAddr = true) : (w.hwmpRouteInfoGet jhash s iface sa ie i).2 = 0 := by
  unfold World.hwmpRouteInfoGet World.routeInfo
  split
  · rename_i w' ie' sta lastHopMetric newMetric expTime process routed
    have unprocessed : process = false := by
      split at routed
      · cases routed
      split at routed
      · cases routed
        rfl
      · split at routed
        · cases routed
        · rename_i looked
          exact nomatch group_lookup unicast s iface group _ _ looked
        · rename_i looked
          exact nomatch group_lookup unicast s iface group _ _ looked
    rw [unprocessed]
    have silent := transmitter_silent jhash w' s iface sa ie' sta lastHopMetric newMetric expTime i.allocPath i.allocNode
    split
    · rename_i framed
      rw [framed] at silent
      cases silent
    · rfl
  · rfl

theorem handle_extended (fits : h.Checked) (extended : h.extended = true) : ∃ ie, h.origin = some ie.origAddr ∧
    ∀ (w : World) (s : Nat) (iface : Iface) (ifmsh : IfMesh) (sa : EthAddr) (i : Inputs),
      w.handle jhash s iface ifmsh sa i h = none ↔ (w.hwmpRouteInfoGet jhash s iface sa ie i).2 ≠ 0 := by
  cases h with
  | preq x =>
    have set : aeFSet x = some true := extended_flag extended
    obtain ⟨⟨ie,route,origin⟩,missing⟩ := preq_outside fits set
    refine ⟨ie,origin,?_⟩
    intro w s _ _ _ i
    unfold World.handle
    dsimp only
    rw [route,Option.bind_some,missing]
    split
    · rename_i silent
      simp [silent]
    · rename_i routed
      simp [routed]
  | prep x =>
    have set : aeFSet x = some true := extended_flag extended
    obtain ⟨⟨ie,route,origin⟩,missing⟩ := prep_outside fits set
    refine ⟨ie,origin,?_⟩
    intro w s _ _ _ i
    unfold World.handle
    dsimp only
    rw [route,Option.bind_some,missing]
    split
    · rename_i silent
      simp [silent]
    · rename_i routed
      simp [routed]
  | perr | rann => cases extended

def otherAddr (addr : EthAddr) : EthAddr := Vector.replicate 6 (if byteAt addr 0 = 0 then 1 else 0)
def fixedPath (dst : EthAddr) : MeshPath := {newMpath dst dst 0 broadcastAddr 0 with flags.fixed := true}

def peerWorld (orig sa : EthAddr) : World where
  tbl := ⟨250,0,[⟨otherAddr orig,1,2,0,false,false⟩],[fixedPath orig,fixedPath sa],⟨0,0,2,[[0,1]],[]⟩,⟨0,0,0,[[]],[]⟩,[]⟩
  mesh := []
  stas := [⟨0,sa,true,true⟩]
  tasks := []
  sent := []

theorem accepts_unicast {w : World} (unicast : w.Unicast) (accepted : w.accepts s frame = true) :
    isMulticastEtherAddr (saOf frame) = false := by
  unfold World.accepts World.staInfoGet at accepted
  cases found : w.stas.findIdx? (fun sta => sta.listed && sta.sdata == s && sta.addr == saOf frame) with
  | none =>
    rw [found] at accepted
    cases accepted
  | some k =>
    obtain ⟨inside,wanted,-⟩ := List.findIdx?_eq_some_iff_getElem.mp found
    have same : w.stas[k].addr = saOf frame := beq_iff_eq.mp (Bool.and_eq_true_iff.mp wanted).2
    rw [← same]
    exact unicast.2 _ (List.getElem_mem inside)

theorem peerWorld_accepts (orig : EthAddr) (frame : List UInt8) : (peerWorld orig (saOf frame)).accepts 0 frame = true := by
  unfold World.accepts World.staInfoGet peerWorld
  simp

def peerMesh : IfMesh := ⟨sampleCfg,0,1000,0,1000,1000,[]⟩

theorem peerWorld_unicast (single : isMulticastEtherAddr orig = false) (peer : isMulticastEtherAddr sa = false) :
    (peerWorld orig sa).Unicast := by
  constructor
  · intro m member
    rcases List.mem_cons.mp member with rfl | member
    · exact single
    · cases List.mem_singleton.mp member
      exact peer
  · intro _ member
    cases List.mem_singleton.mp member
    exact peer

theorem sumMetric_positive (metric : UInt32) : sumMetric metric maxMetric ≠ 0 := by
  unfold sumMetric
  split
  · decide
  · rename_i whole
    intro zero
    rw [zero,UInt32.lt_iff_toNat_lt] at whole
    have sum := congrArg UInt32.toNat zero
    rw [UInt32.toNat_add] at sum
    have most : maxMetric.toNat = 4294967295 := rfl
    have none_left : (0 : UInt32).toNat = 0 := rfl
    omega

theorem peerWorld_lookup (jhash : UInt32 → UInt32 → UInt32 → UInt32) (orig sa dst : EthAddr) (listed : dst = orig ∨ dst = sa) :
    ∃ p, (peerWorld orig sa).meshPathLookup jhash 0 dst = (peerWorld orig sa,some p) ∧
      ((peerWorld orig sa).path p).any (fun m => m.flags.fixed) = true := by
  have hash : meshTableHash jhash dst ((peerWorld orig sa).tbl.ifindex 0) (peerWorld orig sa).tbl.meshPaths = 0 :=
    Nat.and_zero _
  have search : (peerWorld orig sa).tbl.find jhash .paths 0 dst = [0,1].find? ((peerWorld orig sa).tbl.is 0 dst) := by
    unfold MeshPathtbl.World.find
    have tables : (peerWorld orig sa).tbl.table .paths = (peerWorld orig sa).tbl.meshPaths := rfl
    rw [tables,hash]
    rfl
  have first : (peerWorld orig sa).tbl.is 0 dst 0 = (orig == dst) := rfl
  have second : (peerWorld orig sa).tbl.is 0 dst 1 = (sa == dst) := rfl
  unfold World.meshPathLookup MeshPathtbl.World.mpathLookup
  by_cases here : orig = dst
  · rw [search,List.find?_cons_of_pos (by rw [first]; exact beq_iff_eq.mpr here)]
    exact ⟨0,rfl,rfl⟩
  · have there : sa = dst := by
      cases listed with
      | inl same => exact absurd same.symm here
      | inr same => exact same.symm
    rw [search,List.find?_cons_of_neg (by rw [first]; simpa using here),
      List.find?_cons_of_pos (by rw [second]; exact beq_iff_eq.mpr there)]
    exact ⟨1,rfl,rfl⟩

theorem otherAddr_ne (addr : EthAddr) : addr ≠ otherAddr addr := by
  intro same
  have first := congrArg (fun a => byteAt a 0) same
  have other : byteAt (otherAddr addr) 0 = if byteAt addr 0 = 0 then 1 else 0 := rfl
  rw [other] at first
  split at first
  · rename_i zero
    rw [zero] at first
    exact absurd first (by decide)
  · rename_i set
    exact set first

theorem fixed_routes {w : World}
    (station : w.staInfoGet s sa = some sta) (other : ie.origAddr ≠ iface.addr)
    (lookedOrig : w.meshPathLookup jhash s ie.origAddr = (w,some p)) (fixedOrig : (w.path p).any (fun m => m.flags.fixed) = true)
    (lookedSa : w.meshPathLookup jhash s sa = (w,some q)) (fixedSa : (w.path q).any (fun m => m.flags.fixed) = true)
    (positive : sumMetric ie.metric i.metric ≠ 0) :
    (w.hwmpRouteInfoGet jhash s iface sa ie i).2 = sumMetric ie.metric i.metric := by
  have stale : (w.path q).any (fun m => staleTransmitter m i.metric) = true := by
    cases stored : w.path q with
    | none =>
      rw [stored] at fixedSa
      cases fixedSa
    | some =>
      rw [stored,Option.any_some] at fixedSa
      rw [Option.any_some]
      unfold staleTransmitter
      rw [fixedSa,Bool.true_or]
  have kept : (true && sumMetric ie.metric i.metric != 0) = true := bne_iff_ne.mpr positive
  unfold World.hwmpRouteInfoGet World.routeInfo
  rw [station]
  dsimp only
  rw [if_neg (by simpa using other)]
  unfold World.lookupOrAdd
  rw [lookedOrig]
  dsimp only
  rw [if_pos fixedOrig]
  dsimp only
  unfold World.transmitterInfo World.lookupOrAdd
  rw [lookedSa]
  dsimp only
  rw [if_pos stale,ite_self,if_pos kept]

theorem peerWorld_routes (ie : RouteIe) (sa : EthAddr) (jhash : UInt32 → UInt32 → UInt32 → UInt32) :
    ((peerWorld ie.origAddr sa).hwmpRouteInfoGet jhash 0 ⟨otherAddr ie.origAddr,1,2,0,false,false⟩ sa ie
      ⟨maxMetric,false,false,false,false⟩).2 ≠ 0 := by
  obtain ⟨p,lookedOrig,fixedOrig⟩ := peerWorld_lookup jhash ie.origAddr sa ie.origAddr (.inl rfl)
  obtain ⟨q,lookedSa,fixedSa⟩ := peerWorld_lookup jhash ie.origAddr sa sa (.inr rfl)
  have station : (peerWorld ie.origAddr sa).staInfoGet 0 sa = some 0 := by
    unfold World.staInfoGet peerWorld
    simp
  have positive := sumMetric_positive ie.metric
  rw [fixed_routes (i := ⟨maxMetric,false,false,false,false⟩) station (otherAddr_ne ie.origAddr) lookedOrig fixedOrig lookedSa fixedSa positive]
  exact positive

theorem read_beyond (jhash : UInt32 → UInt32 → UInt32 → UInt32) (ifmsh : IfMesh) (fits : h.Checked) (extended : h.extended = true)
    (single : h.origin.any isMulticastEtherAddr ≠ true) (peer : isMulticastEtherAddr (saOf frame) = false) :
    ∃ (w : World) (s : Nat) (iface : Iface) (i : Inputs), w.Unicast ∧ w.accepts s frame = true ∧
      w.handle jhash s iface ifmsh (saOf frame) i h = none := by
  obtain ⟨ie,origin,beyond⟩ := handle_extended fits extended
  rw [origin] at single
  have plainOrigin : isMulticastEtherAddr ie.origAddr = false := Bool.eq_false_iff.mpr single
  refine ⟨peerWorld ie.origAddr (saOf frame),0,⟨otherAddr ie.origAddr,1,2,0,false,false⟩,⟨maxMetric,false,false,false,false⟩,
    peerWorld_unicast plainOrigin peer,peerWorld_accepts ie.origAddr frame,?_⟩
  exact (beyond _ _ _ _ _ _).mpr (peerWorld_routes ie (saOf frame) jhash)

theorem in_bounds_exact (jhash : UInt32 → UInt32 → UInt32 → UInt32) (frame : List UInt8) : InBounds jhash frame ↔
    isMulticastEtherAddr (saOf frame) = true ∨ ∀ elems, frameElems frame = some elems → ∀ h ∈ handlers elems,
      h.extended = true → h.origin.any isMulticastEtherAddr = true := by
  constructor
  · intro inBounds
    by_cases group : isMulticastEtherAddr (saOf frame) = true
    · exact .inl group
    · refine .inr ?_
      intro elems parsed h member extended
      by_contra single
      obtain ⟨w,s,iface,i,unicast,accepted,beyond⟩ := read_beyond jhash peerMesh (handlers_checked parsed member) extended single
        (Bool.eq_false_iff.mpr group)
      exact inBounds elems parsed h member w s iface peerMesh i unicast accepted beyond
  intro condition elems parsed h member w s iface ifmsh i unicast accepted
  have fits := handlers_checked parsed member
  cases extended : h.extended with
  | false => exact handle_inside fits extended w s iface ifmsh (saOf frame) i
  | true =>
    have origins : h.origin.any isMulticastEtherAddr = true := by
      cases condition with
      | inl group => exact absurd group (Bool.eq_false_iff.mp (accepts_unicast unicast accepted))
      | inr groups => exact groups elems parsed h member extended
    obtain ⟨_,origin,beyond⟩ := handle_extended fits extended
    rw [origin] at origins
    intro missing
    exact (beyond w s iface ifmsh (saOf frame) i).mp missing (group_unrouted unicast s iface (saOf frame) i origins)

end bounds

def extendedPreq : List UInt8 := [0x40,0,31] ++ le32 12 ++ addrBytes (macAddr 2 0 0 0 0 9) ++ List.replicate 24 0
def extendedFrame : List UInt8 := pathSelHdr (macAddr 2 0 0 0 0 1) broadcastAddr ++ Tlv.encode (eidPreq,extendedPreq)

theorem extended_out_of_bounds : ¬InBounds sampleHash extendedFrame := by
  intro inBounds
  have parsed : frameElems extendedFrame = some ⟨some extendedPreq,none,none,none⟩ := by
    unfold extendedFrame
    rw [frameElems_one (by decide)]
    rfl
  have member : Handler.preq extendedPreq ∈ handlers ⟨some extendedPreq,none,none,none⟩ := List.mem_singleton.mpr rfl
  have peer : isMulticastEtherAddr (saOf extendedFrame) = false := by decide
  obtain ⟨w,s,iface,i,unicast,accepted,beyond⟩ := read_beyond sampleHash peerMesh (handlers_checked parsed member) (by decide) (by decide) peer
  exact inBounds _ parsed _ member w s iface peerMesh i unicast accepted beyond

end Mac80211.MeshHwmp

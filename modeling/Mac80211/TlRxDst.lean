import Mac80211.TlRx

namespace Mac80211.TlRxDst
open Loops TlRx
open Option (map_eq_some_iff)

-- With those static in a function. Of the timers only whether they are pending is kept.
structure State where
  tf1Info : Option TrInfo
  tf2Info : Option TrInfo
  sdfInfo : Option TrInfo
  tlRxTf1Timer : Bool
  tlRxTf2Timer : Bool
  tlRxTr2Timer : Bool
  tl2hopMcsSendTimer : Bool
  tf1PrevRcvNum : UInt32
  tf2PrevRcvNum : UInt32
  lastTf2Id : UInt32
  devSend2 : Option NetDevice
  tr2List : List TrInfo
  forInit : Bool
  tf1CurIndex : UInt32
  tf2CurIndex : UInt32
  mcs : UInt8
  trId : UInt32
  par : TrParam
  nextInfo : Nat
  kernel : Kernel

def initial (random : Nat → UInt8) : State where
  tf1Info := none
  tf2Info := none
  sdfInfo := none
  tlRxTf1Timer := false
  tlRxTf2Timer := false
  tlRxTr2Timer := false
  tl2hopMcsSendTimer := false
  tf1PrevRcvNum := 0
  tf2PrevRcvNum := 0
  lastTf2Id := 0
  devSend2 := none
  tr2List := []
  forInit := true
  tf1CurIndex := 0
  tf2CurIndex := 0
  mcs := 0
  trId := 0
  par := {}
  nextInfo := 0
  kernel := ⟨0,random,0,[]⟩

def nbrSize : Nat := ethAlen + 2 + 4 * numMcs

def putNbr (rpt : Skb) (i : Nat) (info : TrInfo) : Skb :=
  let ii := i * nbrSize
  let rpt := memcpy rpt (etherHeadLen + 6 + ii) info.addr.toList
  let rpt := rpt.store (etherHeadLen + 6 + ii + ethAlen) info.rssi
  let rpt := rpt.store (etherHeadLen + 6 + ii + ethAlen + 1) info.batt
  putRcv rpt (etherHeadLen + 6 + ii + ethAlen + 2) info.rcvNum

def putNbrs (rpt : Skb) (i : Nat) : List TrInfo → Skb
  | [] => rpt
  | info :: rest => putNbrs (putNbr rpt i info) (i + 1) rest

def rptSize (qlen : Nat) : Nat := (etherHeadLen + 6 + nbrSize * qlen) % 2 ^ 32

def nbrRpt (rpt : Skb) (sdf : TrInfo) (list : List TrInfo) : Skb :=
  let rpt := putU32 rpt (etherHeadLen + 1) sdf.totalNum
  let rpt := rpt.store (etherHeadLen + 5) (UInt8.ofNat list.length)
  putNbrs rpt 0 list

def tlRxTr2TimerFunc (room : Bool) (s : State) : State :=
  match s.tr2List,s.sdfInfo with
  | [],_ => s
  | _ :: _,none => s
  | info :: rest,some sdf =>
    match tlAllocSkb room info.dev sdf.addr info.dev.devAddr (rptSize (info :: rest).length) .nbrRPT s.kernel with
    | (none,kernel) => {s with sdfInfo := none,kernel := kernel}
    | (some rpt,kernel) =>
      {s with tr2List := [],sdfInfo := none,kernel := devQueueXmit (nbrRpt rpt sdf (info :: rest)) kernel}

def trRpt (rpt : Skb) (info : TrInfo) : Skb :=
  let rpt := rpt.store (etherHeadLen + 1) info.rssi
  let rpt := rpt.store (etherHeadLen + 2) info.batt
  putRcv rpt (etherHeadLen + 3) info.rcvNum

def sendTrRpt (room : Bool) (info : TrInfo) (type : TrType) (kernel : Kernel) : Kernel :=
  match tlAllocSkb room info.dev info.addr info.dev.devAddr trSize type kernel with
  | (none,kernel) => kernel
  | (some rpt,kernel) => devQueueXmit (trRpt rpt info) kernel

-- With the records of its two types. get_tot_rcv reads the record before it is tested.
def tlRxTfTimerFunc (type : TrType) (room : Bool) (s : State) : Returns State :=
  match type with
  | .typeOneTR =>
    match s.tf1Info with
    | none => none
    | some info =>
      if s.tf1PrevRcvNum < getTotRcv info then
        some {s with tf1PrevRcvNum := getTotRcv info,tlRxTf1Timer := true}
      else some {s with tlRxTf1Timer := false,kernel := sendTrRpt room info .typeOneTR s.kernel}
  | .typeTwoTR =>
    match s.tf2Info with
    | none => none
    | some info =>
      if s.tf2PrevRcvNum < getTotRcv info then
        some {s with tf2PrevRcvNum := getTotRcv info,tlRxTf2Timer := true}
      else some {s with tlRxTf2Timer := false,kernel := sendTrRpt room info .typeTwoTR s.kernel}
  | _ => some s

def tl2hopMcsSendTimerFunc (room : Nat → Bool) (s : State) : Returns State :=
  let s :=
    if s.mcs = 0 then
      let (trId,kernel) := drawTrId s.lastTf2Id s.kernel
      {s with tl2hopMcsSendTimer := false,trId := trId,lastTf2Id := trId,kernel := kernel}
    else s
  match s.sdfInfo with
  | none => none
  | some sdf =>
    (sendTrainingFrames .typeTwoTF room s.devSend2 sdf.totalNum s.trId s.mcs s.kernel).map fun kernel =>
      if s.mcs.toNat < numMcs - 1 then {s with tl2hopMcsSendTimer := true,mcs := s.mcs + 1,kernel := kernel}
      else {s with tl2hopMcsSendTimer := false,mcs := 0,kernel := kernel}

-- A frame of another round starts a new round in the same record.
def typeOneTF (skb : Skb) (s : State) : Returns State :=
  let tf1K := getU32 skb 1
  let tf1Index := getU32 skb 9
  let mcs := skb.byte 13
  let (info,s) := match s.tf1Info with
    | some info => (info,s)
    | none => (trInfoCreate s.nextInfo (saddr skb) skb.dev tf1K zeroRcv 0 0,
        {s with tf1CurIndex := tf1Index,nextInfo := s.nextInfo + 1})
  if info.addr == saddr skb && s.tf1CurIndex == tf1Index then
    (countRcv mcs info).map fun info => {s with tf1Info := some info,tlRxTf1Timer := true}
  else
    (countRcv mcs {info with addr := saddr skb,dev := skb.dev,totalNum := tf1K,rcvNum := zeroRcv}).map fun info =>
      {s with
        par := trSetParam false false 10 0 0 0 0
        tf2Info := none
        tr2List := trInfoListPurge s.tr2List
        sdfInfo := none
        tf1Info := some info
        tf1PrevRcvNum := 0
        tf1CurIndex := tf1Index}

-- A new round is a new record here; the old one is not freed.
def typeTwoTF (skb : Skb) (s : State) : Returns State :=
  let tf2K := getU32 skb 1
  let tf2Index := getU32 skb 9
  let mcs := skb.byte 13
  let (info,s) := match s.tf2Info with
    | some info => (info,s)
    | none => (trInfoCreate s.nextInfo (saddr skb) skb.dev tf2K zeroRcv 0 0,{s with nextInfo := s.nextInfo + 1})
  if info.addr == saddr skb && s.tf2CurIndex == tf2Index then
    (countRcv mcs info).map fun info => {s with tf2Info := some info,tlRxTf2Timer := true}
  else
    (countRcv mcs (trInfoCreate s.nextInfo (saddr skb) skb.dev tf2K zeroRcv 0 0)).map fun info =>
      {s with
        nextInfo := s.nextInfo + 1
        par := trSetParam false false 10 0 0 0 0
        tf1Info := none
        tf2Info := some info
        tf2PrevRcvNum := 0
        tf2CurIndex := tf2Index}

def typeTwoTR (skb : Skb) (sdf : TrInfo) (s : State) : State :=
  let rssi := skb.byte 1
  let batt := skb.byte 2
  let nRcv := getRcv skb 3
  match trInfoFindAddr s.tr2List (saddr skb) with
  | none => {s with
      tr2List := trInfoInsert (trInfoCreate s.nextInfo (saddr skb) skb.dev sdf.totalNum nRcv rssi batt) s.tr2List
      nextInfo := s.nextInfo + 1
      tlRxTr2Timer := true}
  | some _ => {s with
      tr2List := trInfoUpdate (saddr skb) (fun info => {info with
        dev := skb.dev
        totalNum := sdf.totalNum
        rcvNum := nRcv
        rssi := rssi
        batt := batt
        tfCnt := false
        nrCnt := false
        nbrList := trInfoListPurge info.nbrList}) s.tr2List
      tlRxTr2Timer := true}

def sendTF (room : Nat → Bool) (skb : Skb) (s : State) : Returns State :=
  match s.sdfInfo with
  | some _ => some s
  | none => tl2hopMcsSendTimerFunc room {s with
      devSend2 := some skb.dev
      sdfInfo := some (trInfoCreate s.nextInfo (saddr skb) skb.dev (getU32 skb 1) zeroRcv 0 0)
      nextInfo := s.nextInfo + 1}

def prepare (s : State) : State :=
  if s.forInit then
    {s with tr2List := [],tlRxTf1Timer := false,tlRxTf2Timer := false,tlRxTr2Timer := false,forInit := false}
  else s

def tlReceiveSkbDst (room : Nat → Bool) (skb : Skb) (s : State) : Returns State :=
  let type := skb.byte 0
  let mine := skb.dev.devAddr == daddr skb
  let s := prepare s
  let freed := fun (s : State) => {s with kernel := kfreeSkb (some skb) s.kernel}
  if type = TrType.typeOneTF.code then
    if (skb.byte 13).toNat > numMcs then some s
    else if getU32 skb 1 < getU32 skb 5 then some (freed s)
    else (typeOneTF skb s).map freed
  else if type = TrType.typeTwoTF.code then
    if getU32 skb 1 < getU32 skb 5 then some (freed s)
    else (typeTwoTF skb s).map freed
  else if type = TrType.typeTwoTR.code then
    match mine,s.sdfInfo with
    | true,some sdf => some (freed (typeTwoTR skb sdf s))
    | _,_ => some (freed s)
  else if type = TrType.sendTF.code then
    if mine then (sendTF room skb s).map freed else some (freed s)
  else if type = TrType.setRelay.code then
    if mine then some (freed {s with par := trSetParam false false (skb.byte 1) (skb.byte 2) 0 0 0}) else some (freed s)
  else some (freed s)

inductive Event where
  | frame (skb : Skb)
  | tf1Expires
  | tf2Expires
  | tr2Expires
  | mcsExpires

def step (room : Nat → Bool) : Event → State → Returns State
  | .frame skb,s => tlReceiveSkbDst room {skb with id := s.kernel.nextSkb}
      {s with kernel := {s.kernel with nextSkb := s.kernel.nextSkb + 1}}
  | .tf1Expires,s => tlRxTfTimerFunc .typeOneTR (room 0) {s with tlRxTf1Timer := false}
  | .tf2Expires,s => tlRxTfTimerFunc .typeTwoTR (room 0) {s with tlRxTf2Timer := false}
  | .tr2Expires,s => some (tlRxTr2TimerFunc (room 0) {s with tlRxTr2Timer := false})
  | .mcsExpires,s => tl2hopMcsSendTimerFunc room {s with tl2hopMcsSendTimer := false}

def Event.Occurs : Event → State → Prop
  | .frame _,_ => True
  | .tf1Expires,s => s.tlRxTf1Timer = true
  | .tf2Expires,s => s.tlRxTf2Timer = true
  | .tr2Expires,s => s.tlRxTr2Timer = true
  | .mcsExpires,s => s.tl2hopMcsSendTimer = true

inductive Runs (random : Nat → UInt8) (met : Event → State → Prop) : State → Prop where
  | start : Runs random met (initial random)
  | step (prior : Runs random met s) (occurs : e.Occurs s) (ok : met e s) (ran : step room e s = some t) :
      Runs random met t

theorem Runs.keeps (inv : State → Prop) (start : inv (initial random))
    (kept : ∀ room (e : Event) (s t : State), inv s → e.Occurs s → met e s → TlRxDst.step room e s = some t → inv t) (reached : Runs random met s) : inv s := by
  induction reached with
  | start => exact start
  | step prior occurs ok ran ih => exact kept _ _ _ _ ih occurs ok ran

inductive Handles (room : Nat → Bool) (skb : Skb) (s : State) : State → Prop where
  | invalid (kind : skb.byte 0 = TrType.typeOneTF.code) (bad : (skb.byte 13).toNat > numMcs) : Handles room skb s s
  | late (number : getU32 skb 1 < getU32 skb 5) (kernel : Kernel) : Handles room skb s {s with kernel := kernel}
  | ignored (one : skb.byte 0 ≠ TrType.typeOneTF.code) (two : skb.byte 0 ≠ TrType.typeTwoTF.code) (par : TrParam)
      (kernel : Kernel) : Handles room skb s {s with par := par,kernel := kernel}
  | typeOneTF (kind : skb.byte 0 = TrType.typeOneTF.code) (valid : ¬(skb.byte 13).toNat > numMcs)
      (number : ¬getU32 skb 1 < getU32 skb 5) (ran : typeOneTF skb s = some t) (kernel : Kernel) :
      Handles room skb s {t with kernel := kernel}
  | typeTwoTF (kind : skb.byte 0 = TrType.typeTwoTF.code) (number : ¬getU32 skb 1 < getU32 skb 5)
      (ran : typeTwoTF skb s = some t) (kernel : Kernel) : Handles room skb s {t with kernel := kernel}
  | typeTwoTR (kind : skb.byte 0 = TrType.typeTwoTR.code) (known : s.sdfInfo = some sdf) (kernel : Kernel) :
      Handles room skb s {typeTwoTR skb sdf s with kernel := kernel}
  | sendTF (kind : skb.byte 0 = TrType.sendTF.code) (ran : sendTF room skb s = some t) (kernel : Kernel) :
      Handles room skb s {t with kernel := kernel}

theorem receive_cases (ran : tlReceiveSkbDst room skb s = some t) : Handles room skb (prepare s) t := by
  unfold tlReceiveSkbDst at ran
  dsimp only at ran
  generalize prepare s = s at ran ⊢
  split at ran
  · next kind =>
    split at ran
    · next bad =>
      cases ran
      exact .invalid kind bad
    · next valid =>
      split at ran
      · next number =>
        cases ran
        exact .late number _
      · next number =>
        obtain ⟨u,handled,rfl⟩ := map_eq_some_iff.mp ran
        exact .typeOneTF kind valid number handled _
  next one =>
  split at ran
  · next kind =>
    split at ran
    · next number =>
      cases ran
      exact .late number _
    · next number =>
      obtain ⟨u,handled,rfl⟩ := map_eq_some_iff.mp ran
      exact .typeTwoTF kind number handled _
  next two =>
  split at ran
  · next kind =>
    split at ran
    · next known =>
      cases ran
      exact .typeTwoTR kind known _
    · cases ran
      exact .ignored one two _ _
  split at ran
  · next kind =>
    split at ran
    · obtain ⟨u,handled,rfl⟩ := map_eq_some_iff.mp ran
      exact .sendTF kind handled _
    · cases ran
      exact .ignored one two _ _
  · split at ran
    · split at ran
      · cases ran
        exact .ignored one two _ _
      · cases ran
        exact .ignored one two _ _
    · cases ran
      exact .ignored one two _ _

theorem frame_cases (ran : step room (.frame skb) s = some t) : Handles room {skb with id := s.kernel.nextSkb}
      (prepare {s with kernel := {s.kernel with nextSkb := s.kernel.nextSkb + 1}}) t := receive_cases ran

def sameTf1 (skb : Skb) (s : State) : Bool :=
  match s.tf1Info with
  | none => true
  | some info => info.addr == saddr skb && s.tf1CurIndex == getU32 skb 9

def sameTf2 (skb : Skb) (s : State) : Bool :=
  match s.tf2Info with
  | none => s.tf2CurIndex == getU32 skb 9
  | some info => info.addr == saddr skb && s.tf2CurIndex == getU32 skb 9

def tf1Record (skb : Skb) (s : State) : TrInfo :=
  let info := s.tf1Info.getD (trInfoCreate s.nextInfo (saddr skb) skb.dev (getU32 skb 1) zeroRcv 0 0)
  if sameTf1 skb s then info
  else {info with addr := saddr skb,dev := skb.dev,totalNum := getU32 skb 1,rcvNum := zeroRcv}

def tf2Record (skb : Skb) (s : State) : TrInfo :=
  if sameTf2 skb s then s.tf2Info.getD (trInfoCreate s.nextInfo (saddr skb) skb.dev (getU32 skb 1) zeroRcv 0 0)
  else
    trInfoCreate (if s.tf2Info.isSome then s.nextInfo else s.nextInfo + 1) (saddr skb) skb.dev (getU32 skb 1) zeroRcv 0 0

theorem tf1Record_cases (skb : Skb) (s : State) : (tf1Record skb s).addr = saddr skb ∧
    (s.tf1Info = some (tf1Record skb s) ∧ s.tf1CurIndex = getU32 skb 9 ∨ (tf1Record skb s).rcvNum = zeroRcv) := by
  unfold tf1Record
  cases same : sameTf1 skb s with
  | false => exact ⟨rfl,.inr rfl⟩
  | true =>
    unfold sameTf1 at same
    cases known : s.tf1Info with
    | none => exact ⟨rfl,.inr rfl⟩
    | some =>
      rw [known,Bool.and_eq_true,beq_iff_eq,beq_iff_eq] at same
      exact ⟨same.1,.inl ⟨rfl,same.2⟩⟩

theorem tf2Record_cases (skb : Skb) (s : State) : (tf2Record skb s).addr = saddr skb ∧
    (s.tf2Info = some (tf2Record skb s) ∨ (tf2Record skb s).rcvNum = zeroRcv) := by
  unfold tf2Record
  cases same : sameTf2 skb s with
  | false => exact ⟨rfl,.inr rfl⟩
  | true =>
    unfold sameTf2 at same
    cases known : s.tf2Info with
    | none => exact ⟨rfl,.inr rfl⟩
    | some =>
      rw [known] at same
      rw [Bool.and_eq_true,beq_iff_eq] at same
      exact ⟨same.1,.inl rfl⟩

-- The frame is counted in its record; one of another round also resets.
theorem typeOneTF_eq (skb : Skb) (s : State) : typeOneTF skb s = (countRcv (skb.byte 13) (tf1Record skb s)).map fun info =>
    if sameTf1 skb s then {s with
      tf1Info := some info
      tf1CurIndex := getU32 skb 9
      nextInfo := if s.tf1Info.isSome then s.nextInfo else s.nextInfo + 1
      tlRxTf1Timer := true}
    else {s with
      par := trSetParam false false 10 0 0 0 0
      tf2Info := none
      tr2List := []
      sdfInfo := none
      tf1Info := some info
      tf1PrevRcvNum := 0
      tf1CurIndex := getU32 skb 9} := by
  unfold typeOneTF tf1Record sameTf1
  cases known : s.tf1Info with
  | none => simp [trInfoCreate]
  | some info =>
    cases same : info.addr == saddr skb && s.tf1CurIndex == getU32 skb 9 with
    | false => simp [same,trInfoListPurge]
    | true =>
      obtain ⟨addr,index⟩ : info.addr = saddr skb ∧ s.tf1CurIndex = getU32 skb 9 := by simpa using same
      simp [addr,← index]

theorem typeTwoTF_eq (skb : Skb) (s : State) : typeTwoTF skb s = (countRcv (skb.byte 13) (tf2Record skb s)).map fun info =>
    let next := if s.tf2Info.isSome then s.nextInfo else s.nextInfo + 1
    if sameTf2 skb s then {s with tf2Info := some info,nextInfo := next,tlRxTf2Timer := true}
    else {s with
      nextInfo := next + 1
      par := trSetParam false false 10 0 0 0 0
      tf1Info := none
      tf2Info := some info
      tf2PrevRcvNum := 0
      tf2CurIndex := getU32 skb 9} := by
  unfold typeTwoTF tf2Record sameTf2
  cases known : s.tf2Info with
  | none => cases same : s.tf2CurIndex == getU32 skb 9 with | false | true => simp [trInfoCreate,same]
  | some info =>
    cases same : info.addr == saddr skb && s.tf2CurIndex == getU32 skb 9 with
    | false | true => simp [same]

theorem typeOneTF_record (ran : typeOneTF skb s = some t) :
    ∃ after, countRcv (skb.byte 13) (tf1Record skb s) = some after ∧ t.tf1Info = some after ∧ t.tf1CurIndex = getU32 skb 9 := by
  rw [typeOneTF_eq] at ran
  obtain ⟨after,counted,rfl⟩ := map_eq_some_iff.mp ran
  split <;> exact ⟨after,counted,rfl,rfl⟩

theorem typeTwoTF_record (ran : typeTwoTF skb s = some t) :
    ∃ after, countRcv (skb.byte 13) (tf2Record skb s) = some after ∧ t.tf2Info = some after := by
  rw [typeTwoTF_eq] at ran
  obtain ⟨after,counted,rfl⟩ := map_eq_some_iff.mp ran
  dsimp only
  split <;> exact ⟨after,counted,rfl⟩

theorem typeOneTF_same (ran : typeOneTF skb s = some t) (same : sameTf1 skb s = true) :
    ∃ info index next, t = {s with tf1Info := some info,tf1CurIndex := index,nextInfo := next,tlRxTf1Timer := true} := by
  rw [typeOneTF_eq] at ran
  obtain ⟨info,_,rfl⟩ := map_eq_some_iff.mp ran
  rw [if_pos same]
  exact ⟨info,_,_,rfl⟩

theorem typeOneTF_round (ran : typeOneTF skb s = some t) (other : sameTf1 skb s = false) : ∃ info, t = {s with
      par := trSetParam false false 10 0 0 0 0
      tf2Info := none
      tr2List := []
      sdfInfo := none
      tf1Info := some info
      tf1PrevRcvNum := 0
      tf1CurIndex := getU32 skb 9} := by
  rw [typeOneTF_eq] at ran
  obtain ⟨info,_,rfl⟩ := map_eq_some_iff.mp ran
  rw [if_neg (Bool.eq_false_iff.mp other)]
  exact ⟨info,rfl⟩

theorem typeTwoTF_same (ran : typeTwoTF skb s = some t) (same : sameTf2 skb s = true) :
    ∃ info next, t = {s with tf2Info := some info,nextInfo := next,tlRxTf2Timer := true} := by
  rw [typeTwoTF_eq] at ran
  obtain ⟨info,_,rfl⟩ := map_eq_some_iff.mp ran
  dsimp only
  rw [if_pos same]
  exact ⟨info,_,rfl⟩

theorem typeTwoTF_round (ran : typeTwoTF skb s = some t) (other : sameTf2 skb s = false) : ∃ info next par, t = {s with
      nextInfo := next
      par := par
      tf1Info := none
      tf2Info := some info
      tf2PrevRcvNum := 0
      tf2CurIndex := getU32 skb 9} := by
  rw [typeTwoTF_eq] at ran
  obtain ⟨info,_,rfl⟩ := map_eq_some_iff.mp ran
  dsimp only
  rw [if_neg (Bool.eq_false_iff.mp other)]
  exact ⟨info,_,_,rfl⟩

theorem mcs_cases (ran : tl2hopMcsSendTimerFunc room s = some t) :
    ∃ sdf pending trId lastId mcs kernel, s.sdfInfo = some sdf ∧ t = {s with
      tl2hopMcsSendTimer := pending
      trId := trId
      lastTf2Id := lastId
      mcs := mcs
      kernel := kernel} := by
  unfold tl2hopMcsSendTimerFunc at ran
  split at ran
  · cases known : s.sdfInfo with
    | none =>
      simp only [known] at ran
      cases ran
    | some sdf =>
      simp only [known] at ran
      obtain ⟨kernel,_,rfl⟩ := map_eq_some_iff.mp ran
      split
      · exact ⟨sdf,true,(drawTrId s.lastTf2Id s.kernel).1,(drawTrId s.lastTf2Id s.kernel).1,s.mcs + 1,kernel,rfl,rfl⟩
      · exact ⟨sdf,false,(drawTrId s.lastTf2Id s.kernel).1,(drawTrId s.lastTf2Id s.kernel).1,0,kernel,rfl,rfl⟩
  cases known : s.sdfInfo with
  | none =>
    simp only [known] at ran
    cases ran
  | some =>
    simp only [known] at ran
    obtain ⟨_,_,rfl⟩ := map_eq_some_iff.mp ran
    split <;> exact ⟨_,_,_,_,_,_,rfl,rfl⟩

theorem sendTF_cases (ran : sendTF room skb s = some t) :
    t = s ∨ s.sdfInfo = none ∧ ∃ dev sdf next pending trId lastId mcs kernel, t = {s with
      devSend2 := dev
      sdfInfo := some sdf
      nextInfo := next
      tl2hopMcsSendTimer := pending
      trId := trId
      lastTf2Id := lastId
      mcs := mcs
      kernel := kernel} := by
  unfold sendTF at ran
  split at ran
  · cases ran
    exact Or.inl rfl
  · next known =>
    obtain ⟨_,pending,trId,lastId,mcs,kernel,_,rfl⟩ := mcs_cases ran
    exact Or.inr ⟨known,_,_,_,pending,trId,lastId,mcs,kernel,rfl⟩

def TrType.record (type : TrType) (s : State) : Option TrInfo :=
  match type with
  | .typeOneTR => s.tf1Info
  | _ => s.tf2Info

-- What the timer of either type can change, besides sending.
def TrType.timed (type : TrType) (count : UInt32) (pending : Bool) (kernel : Kernel) (s : State) : State :=
  match type with
  | .typeOneTR => {s with tf1PrevRcvNum := count,tlRxTf1Timer := pending,kernel := kernel}
  | _ => {s with tf2PrevRcvNum := count,tlRxTf2Timer := pending,kernel := kernel}

theorem tf_cases (kind : type = .typeOneTR ∨ type = .typeTwoTR) (ran : tlRxTfTimerFunc type room s = some t) :
    ∃ info count pending kernel, TrType.record type s = some info ∧ (kernel = s.kernel ∨ kernel = sendTrRpt room info type s.kernel) ∧
      t = TrType.timed type count pending kernel s := by
  unfold tlRxTfTimerFunc at ran
  rcases kind with rfl | rfl
  all_goals
    dsimp only at ran
    split at ran
    · cases ran
    · next known =>
      split at ran
      · cases ran
        exact ⟨_,_,_,_,known,.inl rfl,rfl⟩
      · cases ran
        exact ⟨_,_,_,_,known,.inr rfl,rfl⟩

theorem tr2_cases (room : Bool) (s : State) : (s.tr2List = [] ∨ s.sdfInfo = none) ∧ tlRxTr2TimerFunc room s = s ∨
      s.tr2List ≠ [] ∧ s.sdfInfo.isSome ∧ ∃ list kernel, (list = [] ∨ list = s.tr2List) ∧
        tlRxTr2TimerFunc room s = {s with tr2List := list,sdfInfo := none,kernel := kernel} := by
  unfold tlRxTr2TimerFunc
  cases list : s.tr2List with
  | nil => exact Or.inl ⟨Or.inl rfl,rfl⟩
  | cons info rest =>
    cases known : s.sdfInfo with
    | none => exact Or.inl ⟨Or.inr rfl,rfl⟩
    | some =>
      refine Or.inr ⟨List.cons_ne_nil _ _,rfl,?_⟩
      dsimp only
      split
      · exact ⟨info :: rest,_,Or.inr rfl,rfl⟩
      · exact ⟨[],_,Or.inl rfl,rfl⟩

end Mac80211.TlRxDst

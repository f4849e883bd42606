import Mac80211.TlFrame

namespace Mac80211.TlRxSrc
open Loops TlRx

-- With those static in a function. Of the timers only whether they are pending is kept, and of sndtf the
-- record. The lists a relay was selected from are not in the code.
structure State where
  srcNbrList : List TrInfo
  tlRxTr1Timer : Bool
  tlRxSndtfTimer : Option Nat
  tlMcsSendTimer : Bool
  pollingState : Bool
  pollingAddr : EthAddr
  lastTrId : UInt32
  devSend : Option NetDevice
  forSrcInit : Bool
  mcs : UInt8
  trId : UInt32
  par : TrParam
  nextInfo : Nat
  selections : List (List TrInfo)
  kernel : Kernel

def initial (random : Nat → UInt8) : State where
  srcNbrList := []
  tlRxTr1Timer := false
  tlRxSndtfTimer := none
  tlMcsSendTimer := false
  pollingState := false
  pollingAddr := Vector.replicate 6 0
  lastTrId := 0
  devSend := none
  forSrcInit := true
  mcs := 0
  trId := 0
  par := {}
  nextInfo := 0
  selections := []
  kernel := ⟨0,random,0,[]⟩

def tlMcsSendTimerFunc (room : Nat → Bool) (s : State) : Returns State :=
  let s :=
    if s.mcs = 0 then
      let (trId,kernel) := drawTrId s.lastTrId s.kernel
      {s with tlMcsSendTimer := false,trId := trId,lastTrId := trId,kernel := kernel}
    else s
  (sendTrainingFrames .typeOneTF room s.devSend s.par.tfK s.trId s.mcs s.kernel).map fun kernel =>
    if s.mcs.toNat < numMcs - 1 then {s with tlMcsSendTimer := true,mcs := s.mcs + 1,kernel := kernel}
    else {s with tlMcsSendTimer := false,mcs := 0,kernel := kernel}

def startParam (skb : Skb) : TrParam :=
  trSetParam true (skb.byte 58 != 0) (skb.byte 59) (skb.byte 60) (skb.byte 61).toUInt32 (skb.byte 62).toUInt32 (skb.byte 63)

def startPorts (skb : Skb) : Bool :=
  (List.range 8).all fun i =>
    skb.mem skb.transportHeader == skb.byte (42 + 2 * i) && skb.mem (skb.transportHeader + 1) == skb.byte (42 + 2 * i + 1)

def tlStartCheck (room : Nat → Bool) (skb : Skb) (s : State) : Returns (Bool × State) :=
  if skb.len < 42 + 16 + 6 then some (false,s)
  else if !startPorts skb then some (false,s)
  else if s.pollingState then some (false,s)
  else
    (tlMcsSendTimerFunc room {s with
      devSend := some skb.dev
      par := startParam skb
      srcNbrList := trInfoListPurge s.srcNbrList}).map fun s => (true,s)

def startPacket (room : Nat → Bool) (skb : Skb) (s : State) : Returns State :=
  (tlStartCheck room skb s).map fun (started,s) =>
    {s with kernel := if started then kfreeSkb (some skb) s.kernel else ieee80211SubifStartXmit skb skb.dev s.kernel}

-- min_max_relay is commented out, so nothing follows the arrangement.
def tlSelectRelay (s : State) : State :=
  match s.srcNbrList with
  | [] => s
  | _ :: _ => {s with
      srcNbrList := trInfoListArrangement s.par.tfThre s.srcNbrList
      selections := s.selections ++ [s.srcNbrList]}

def sendTf (room : Bool) (info : TrInfo) (s : State) : Option Skb × Kernel :=
  match tlAllocSkb room info.dev info.addr info.dev.devAddr sndtfSize .sendTF s.kernel with
  | (none,kernel) => (none,kernel)
  | (some sndtf,kernel) => (some (putU32 sndtf (etherHeadLen + 1) s.par.tfK),kernel)

-- passed: the records before the one it looks at.
def poll (room : Nat → Bool) (passed : List TrInfo) : List TrInfo → State → State
  | [],s => {s with srcNbrList := passed}
  | info :: rest,s =>
    if info.tfCnt = false then
      if firstRcv info.rcvNum ≥ s.par.tfThre then
        match sendTf (room passed.length) info s with
        | (some sndtf,kernel) => {s with
            srcNbrList := passed ++ {info with tfCnt := true,nrCnt := false} :: rest
            pollingAddr := info.addr
            tlRxSndtfTimer := some info.ptr
            kernel := devQueueXmit sndtf kernel}
        | (none,kernel) => poll room (passed ++ [info]) rest {s with kernel := kernel}
      else
        let info := {info with tfCnt := true,nrCnt := true}
        if trInfoCheckNrCnt (passed ++ info :: rest) then
          tlSelectRelay {s with srcNbrList := passed ++ info :: rest,pollingState := false}
        else poll room (passed ++ [info]) rest s
    else poll room (passed ++ [info]) rest s

def tlRxTr1TimerFunc (room : Nat → Bool) (s : State) : State :=
  poll room [] s.srcNbrList {s with pollingState := true}

def proceed (room : Nat → Bool) (s : State) : State :=
  if trInfoCheckNrCnt s.srcNbrList then tlSelectRelay {s with pollingState := false}
  else tlRxTr1TimerFunc room s

def tlRxSndtfTimerFunc (room : Nat → Bool) (ptr : Nat) (s : State) : Returns State :=
  match s.srcNbrList.find? fun info => info.ptr == ptr with
  | none => none
  | some info =>
    if info.tfCnt != true then some s
    else some (proceed room {s with
      srcNbrList := s.srcNbrList.map fun info => if info.ptr == ptr then {info with nrCnt := true} else info})

def typeOneTR (skb : Skb) (s : State) : State :=
  let rssi := skb.byte 1
  let batt := skb.byte 2
  let nRcv := getRcv skb 3
  match trInfoFindAddr s.srcNbrList (saddr skb) with
  | none => {s with
      srcNbrList := trInfoInsert (trInfoCreate s.nextInfo (saddr skb) skb.dev s.par.tfK nRcv rssi batt) s.srcNbrList
      nextInfo := s.nextInfo + 1
      tlRxTr1Timer := true}
  | some _ => {s with
      srcNbrList := trInfoUpdate (saddr skb) (fun info => {info with
        dev := skb.dev
        totalNum := s.par.tfK
        rcvNum := nRcv
        rssi := rssi
        batt := batt
        tfCnt := false
        nrCnt := false
        nbrList := trInfoListPurge info.nbrList}) s.srcNbrList
      tlRxTr1Timer := true}

def rptTotal (skb : Skb) : UInt32 := getU32 skb 1
def rptNum (skb : Skb) : Nat := (skb.byte 5).toNat

def readNbr (skb : Skb) (ptr i : Nat) : TrInfo :=
  let ii := i * (ethAlen + 2 + 4 * numMcs)
  trInfoCreate ptr (getAddr skb (ii + 6)) skb.dev (rptTotal skb) (getRcv skb (ii + 6 + ethAlen + 2)) (skb.byte (ii + 7))
    (skb.byte (ii + 8))

def addNbr (skb : Skb) (i : Nat) (nbrs : List TrInfo × Nat) : List TrInfo × Nat :=
  let nbr := readNbr skb nbrs.2 i
  match trInfoFindAddr nbrs.1 nbr.addr with
  | none => (trInfoInsert nbr nbrs.1,nbrs.2 + 1)
  | some _ => (trInfoUpdate nbr.addr (fun info => {info with
      totalNum := nbr.totalNum
      rcvNum := nbr.rcvNum
      rssi := nbr.rssi
      batt := nbr.batt
      dev := nbr.dev}) nbrs.1,nbrs.2)

def addNbrs (skb : Skb) (nbrList : List TrInfo) (nextInfo : Nat) : List TrInfo × Nat :=
  forRange 0 (rptNum skb) (addNbr skb) (nbrList,nextInfo)

def nbrRPT (room : Nat → Bool) (skb : Skb) (s : State) : State :=
  if s.pollingState = false then s
  else if s.pollingAddr ≠ saddr skb then s
  else
    match trInfoFindAddr s.srcNbrList (saddr skb) with
    | none => s
    | some info =>
      if info.tfCnt = true then
        let (nbrList,nextInfo) := addNbrs skb info.nbrList s.nextInfo
        proceed room {s with
          srcNbrList := trInfoUpdate (saddr skb) (fun info => {info with nrCnt := true,nbrList := nbrList}) s.srcNbrList
          tlRxSndtfTimer := none
          nextInfo := nextInfo}
      else s

def prepare (s : State) : State :=
  if s.forSrcInit then {s with tlRxTr1Timer := false,srcNbrList := [],forSrcInit := false} else s

def tlReceiveSkbSrc (room : Nat → Bool) (skb : Skb) (s : State) : State :=
  let type := skb.byte 0
  let s := prepare s
  let s :=
    if skb.dev.devAddr ≠ daddr skb then s
    else if type = TrType.typeOneTR.code then if s.pollingState then s else typeOneTR skb s
    else if type = TrType.nbrRPT.code then nbrRPT room skb s
    else s
  {s with kernel := kfreeSkb (some skb) s.kernel}

inductive Event where
  | start (skb : Skb)
  | frame (skb : Skb)
  | tr1Expires
  | sndtfExpires (ptr : Nat)
  | mcsExpires

def step (room : Nat → Bool) : Event → State → Returns State
  | .start skb,s => startPacket room {skb with id := s.kernel.nextSkb}
      {s with kernel := {s.kernel with nextSkb := s.kernel.nextSkb + 1}}
  | .frame skb,s => some (tlReceiveSkbSrc room {skb with id := s.kernel.nextSkb}
      {s with kernel := {s.kernel with nextSkb := s.kernel.nextSkb + 1}})
  | .tr1Expires,s => some (tlRxTr1TimerFunc room {s with tlRxTr1Timer := false})
  | .sndtfExpires ptr,s => tlRxSndtfTimerFunc room ptr {s with tlRxSndtfTimer := none}
  | .mcsExpires,s => tlMcsSendTimerFunc room {s with tlMcsSendTimer := false}

def Event.Occurs : Event → State → Prop
  | .start _,_ => True
  | .frame _,_ => True
  | .tr1Expires,s => s.tlRxTr1Timer = true
  | .sndtfExpires ptr,s => s.tlRxSndtfTimer = some ptr
  | .mcsExpires,s => s.tlMcsSendTimer = true

def Event.reporter : Event → State → Option EthAddr
  | .start _,_ => none
  | .frame skb,s =>
    if skb.dev.devAddr = daddr skb ∧ skb.byte 0 = TrType.typeOneTR.code ∧ s.pollingState = false then some (saddr skb) else none
  | .tr1Expires,_ => none
  | .sndtfExpires _,_ => none
  | .mcsExpires,_ => none

-- How long the log was when the last report of one hop of a node was accepted; not in the code.
def heard (e : Event) (s : State) (since : EthAddr → Nat) (addr : EthAddr) : Nat :=
  if e.reporter s = some addr then s.kernel.log.length else since addr

inductive Runs (random : Nat → UInt8) (met : (Nat → Bool) → Event → State → Prop) : State → (EthAddr → Nat) → Prop where
  | start : Runs random met (initial random) fun _ => 0
  | step (prior : Runs random met s since) (occurs : e.Occurs s) (ok : met room e s) (ran : step room e s = some t) :
      Runs random met t (heard e s since)

theorem mcs_cases (ran : tlMcsSendTimerFunc room s = some t) :
    ∃ pending trId lastId mcs kernel, s.kernel.log <+: kernel.log ∧ t = {s with
      tlMcsSendTimer := pending
      trId := trId
      lastTrId := lastId
      mcs := mcs
      kernel := kernel} := by
  obtain ⟨kernel,sent,rfl⟩ := Option.map_eq_some_iff.mp ran
  have grows := sendTrainingFrames_log sent
  split
  · next first =>
    rw [if_pos first] at grows
    rw [drawTrId_log] at grows
    dsimp only
    split <;> exact ⟨_,_,_,_,kernel,grows,rfl⟩
  · next later =>
    rw [if_neg later] at grows
    split <;> exact ⟨_,_,_,_,kernel,grows,rfl⟩

theorem start_cases (ran : startPacket room skb s = some t) :
    (∃ kernel, s.kernel.log <+: kernel.log ∧ t = {s with kernel := kernel}) ∨
      s.pollingState = false ∧ ∃ dev par pending trId lastId mcs kernel, s.kernel.log <+: kernel.log ∧ t = {s with
        devSend := dev
        par := par
        srcNbrList := []
        tlMcsSendTimer := pending
        trId := trId
        lastTrId := lastId
        mcs := mcs
        kernel := kernel} := by
  obtain ⟨⟨_,u⟩,checked,rfl⟩ := Option.map_eq_some_iff.mp ran
  unfold tlStartCheck at checked
  split at checked
  · cases checked
    exact Or.inl ⟨_,List.prefix_append _ _,rfl⟩
  split at checked
  · cases checked
    exact Or.inl ⟨_,List.prefix_append _ _,rfl⟩
  · split at checked
    · cases checked
      exact Or.inl ⟨_,List.prefix_append _ _,rfl⟩
    · next idle =>
      obtain ⟨v,begun,same⟩ := Option.map_eq_some_iff.mp checked
      cases same
      obtain ⟨_,_,_,_,_,grows,rfl⟩ := mcs_cases begun
      refine Or.inr ⟨Bool.not_eq_true _ ▸ idle,_,_,_,_,_,_,_,grows.trans (List.prefix_append _ _),rfl⟩

theorem receive_cases (room : Nat → Bool) (skb : Skb) (s : State) :
    ∃ u, tlReceiveSkbSrc room skb s = {u with kernel := kfreeSkb (some skb) u.kernel} ∧
      (u = prepare s ∧ ¬(skb.dev.devAddr = daddr skb ∧ skb.byte 0 = TrType.typeOneTR.code ∧ (prepare s).pollingState = false) ∨
        u = typeOneTR skb (prepare s) ∧
          (skb.dev.devAddr = daddr skb ∧ skb.byte 0 = TrType.typeOneTR.code ∧ (prepare s).pollingState = false) ∨
        u = nbrRPT room skb (prepare s) ∧ skb.byte 0 = TrType.nbrRPT.code) := by
  refine ⟨_,rfl,?_⟩
  split
  · next other => exact Or.inl ⟨rfl,fun accepted => other accepted.1⟩
  next mine =>
  split
  · next kind =>
    split
    · next late => exact Or.inl ⟨rfl,fun accepted => absurd accepted.2.2 (by simp [late])⟩
    · next early => exact Or.inr (Or.inl ⟨rfl,not_not.mp mine,kind,Bool.not_eq_true _ ▸ early⟩)
  · next kind =>
    split
    · next report => exact Or.inr (Or.inr ⟨rfl,report⟩)
    · exact Or.inl ⟨rfl,fun accepted => kind accepted.2.1⟩

end Mac80211.TlRxSrc

import Mac80211.MlmeChan
import Mac80211.Blocks

namespace Mac80211.Mlme
open Chan (Chandef)
open Blocks (Memory)

inductive AuthAlg where
  | openSystem | sharedKey | ft | leap | sae
deriving DecidableEq

-- struct ieee80211_mgd_auth_data and struct ieee80211_mgd_assoc_data.
inductive Block where
  | auth | assoc

structure AuthData where
  addr : Nat
  bssid : Nat
  algorithm : AuthAlg
  saeTrans : Nat
  expectedTransaction : Nat
  tries : Nat
  timeoutStarted : Bool
  done : Bool

structure AssocData where
  addr : Nat
  bssid : Nat
  wmm : Bool
  tries : Nat
  timeoutStarted : Bool
  needBeacon : Bool

-- An AP is known by its address. stas are the entries of the interface; no other has one for its APs.
structure Sdata where
  mem : Memory Block
  authData : Option AuthData
  assocData : Option AssocData
  associated : Option Nat
  bssid : Option Nat
  stas : List Sta
  link : Link
  haveBeacon : Bool

structure Hw where
  queues : Nat
  wepTx : Bool
  needDtimBeforeAssoc : Bool

def hasSta (addr : Nat) (s : Sdata) : Bool := s.stas.any fun sta => sta.addr = addr

def staInfoDestroyAddr (addr : Nat) (s : Sdata) : Sdata := {s with stas := s.stas.filter fun sta => sta.addr ≠ addr}

def releaseChannel (s : Sdata) : Sdata := {s with link := {s.link with chanctx := false}}

def setDisassoc (s : Sdata) : Sdata :=
  if s.associated.isNone then s
  else releaseChannel {s with
    associated := none
    bssid := none
    stas := []
    haveBeacon := false
    link := {s.link with flags := noFlags,htCapa := ⟨false,false⟩}}

def dropConnection (addr : Nat) (s : Sdata) : Sdata :=
  releaseChannel {staInfoDestroyAddr addr s with bssid := none,link := {s.link with flags := noFlags}}

def destroyAuthData (assoc : Bool) (s : Sdata) : Sdata :=
  match s.authData with
  | none => s
  | some auth =>
    let s := if !assoc then dropConnection auth.bssid s else s
    {s with mem := s.mem.free (some auth.addr),authData := none}

def destroyAssocData (assoc : Bool) (s : Sdata) : Sdata :=
  match s.assocData with
  | none => s
  | some data =>
    let s := if !assoc then dropConnection data.bssid s else s
    {s with mem := s.mem.free (some data.addr),assocData := none}

section connect
variable (cfg : Cfg80211) (sband : Sband)

-- sta_info_alloc, the attempts to get a channel context and sta_info_insert.
structure Setup where
  staAlloc : Bool
  use : Chandef → Use
  insert : Option Errno

def isOverride (l : Link) : Bool := applyHtcapOverrides sband l.htCapa != sband.supWidth2040

-- Of ieee80211_prep_connection; a new entry begins with 20 MHz.
def insertSta (a : Setup) (bss : Bss) (s : Sdata) : Sdata × Option Errno :=
  if !s.link.chanctx then (s,some .inval)
  else
    let s := {s with bssid := some bss.bssid}
    if hasSta bss.bssid s then (s,some .exist)
    else
      match a.insert with
      | some err => (s,some err)
      | none => ({s with stas := ⟨bss.bssid,.bw20,.bw20⟩ :: s.stas},none)

def prepConnection (a : Setup) (bss : Bss) (assoc : Bool) (s : Sdata) : Sdata × Option Errno :=
  if s.authData.isNone && s.assocData.isNone then (s,some .inval)
  else
    let haveSta := assoc && hasSta bss.bssid s
    if !haveSta && !a.staAlloc then (s,some .noMem)
    else
      let (link,err) := if !haveSta || isOverride sband s.link then prepChannel cfg sband bss a.use s.link else (s.link,none)
      let s := {s with link := link}
      if err.isSome then (s,some .inval)
      else if !haveSta then insertSta a bss s
      else (s,none)

def authMaxTries : Nat := 3
def assocMaxTries : Nat := 3

def probeAuth (proberesp ssid : Bool) (s : Sdata) : Sdata × Option Errno :=
  match s.authData with
  | none => (s,some .inval)
  | some auth =>
    let auth := {auth with tries := auth.tries + 1}
    if authMaxTries < auth.tries then ({s with authData := some auth},some .timedOut)
    else if proberesp then
      ({s with authData := some {auth with
        expectedTransaction := if auth.algorithm = .sae then auth.saeTrans else 2
        timeoutStarted := true}},none)
    else if !ssid then ({s with authData := some auth},some .inval)
    else ({s with authData := some {auth with timeoutStarted := true}},none)

def clearAuth (addr : Nat) (s : Sdata) : Sdata := {s with bssid := none,authData := none,mem := s.mem.free (some addr)}

def clearAssoc (addr : Nat) (s : Sdata) : Sdata := {s with bssid := none,assocData := none,mem := s.mem.free (some addr)}

structure AuthRequest where
  bss : Bss
  alg : Option AuthAlg
  saeTrans : Nat

structure AuthAnswers where
  alloc : Bool
  setup : Setup

-- Another authentication is not finished, or there is an association.
def busy (s : Sdata) : Bool := (s.authData.any fun auth => !auth.done) || s.assocData.isSome

def startAuth (addr : Nat) (req : AuthRequest) (alg : AuthAlg) (s : Sdata) : Sdata :=
  setDisassoc {destroyAuthData false s with authData := some ⟨addr,req.bss.bssid,alg,req.saeTrans,0,0,false,false⟩}

def mgdAuth (hw : Hw) (req : AuthRequest) (a : AuthAnswers) (s : Sdata) : Sdata × Option Errno :=
  match req.alg with
  | none => (s,some .opNotSupp)
  | some alg =>
    if alg = .sharedKey ∧ hw.wepTx = false then (s,some .opNotSupp)
    else if !a.alloc then (s,some .noMem)
    else
      let addr := s.mem.next
      let s := {s with mem := s.mem.alloc .auth}
      if busy s then ({s with mem := s.mem.free (some addr)},some .busy)
      else
        match prepConnection cfg sband a.setup req.bss false (startAuth addr req alg s) with
        | (s,some err) => (clearAuth addr s,some err)
        | (s,none) =>
          match probeAuth req.bss.proberesp req.bss.ssid s with
          | (s,some err) => (clearAuth addr (staInfoDestroyAddr req.bss.bssid s),some err)
          | (s,none) => (s,none)

-- wep: a pairwise cipher is WEP or TKIP; usableWmm: the AP's WMM parameters are usable; beaconIes: a beacon
-- of the AP is known.
structure AssocRequest where
  bss : Bss
  wep : Bool
  disableHt : Bool
  disableVht : Bool
  htCapa : Overrides
  usableWmm : Bool
  beaconIes : Bool

def assocFlags (hw : Hw) (req : AssocRequest) (flags : StaFlags) : StaFlags :=
  let wmm := req.bss.wmmUsed && 4 ≤ hw.queues
  let disableWmm := flags.disableWmm || wmm && !req.usableWmm
  let noQos := hw.queues < 4 || !req.bss.wmmUsed || disableWmm
  {flags with
    disableWmm := disableWmm
    disableHt := flags.disableHt || req.wep || req.disableHt || !sband.htSupported || noQos || req.bss.htOper.isNone
    disableVht := flags.disableVht || req.wep || req.disableHt || req.disableVht || !sband.vhtSupported || noQos || !req.bss.vhtCap}

def startAssoc (hw : Hw) (addr : Nat) (req : AssocRequest) (s : Sdata) : Sdata :=
  let s := destroyAuthData (s.bssid = some req.bss.bssid) s
  {s with
    link := {s.link with flags := assocFlags sband hw req s.link.flags,htCapa := req.htCapa}
    assocData := some ⟨addr,req.bss.bssid,req.bss.wmmUsed && 4 ≤ hw.queues && req.usableWmm,0,false,false⟩
    haveBeacon := false}

def mgdAssoc (hw : Hw) (req : AssocRequest) (a : AuthAnswers) (s : Sdata) : Sdata × Option Errno :=
  if !a.alloc then (s,some .noMem)
  else
    let addr := s.mem.next
    let s := {s with mem := s.mem.alloc .assoc}
    if !req.bss.ssid then ({s with mem := s.mem.free (some addr)},some .inval)
    else
      let s := setDisassoc s
      if busy s then ({s with mem := s.mem.free (some addr)},some .busy)
      else
        match prepConnection cfg sband a.setup req.bss true (startAssoc sband hw addr req s) with
        | (s,some err) => (clearAssoc addr s,some err)
        | (s,none) => ({s with
            assocData := s.assocData.map fun data => {data with
              timeoutStarted := true
              needBeacon := hw.needDtimBeforeAssoc && !req.beaconIes}
            haveBeacon := req.beaconIes},none)

end connect

structure AuthFrame where
  len : Nat
  bssid : Nat
  alg : Option AuthAlg
  transaction : Nat
  status : Nat
  challenge : Bool

def rxMgmtAuth (f : AuthFrame) (s : Sdata) : Sdata :=
  match s.authData with
  | none => s
  | some auth =>
    if f.len < 24 + 6 ∨ auth.done = true ∨ f.bssid ≠ auth.bssid then s
    else if f.alg ≠ some auth.algorithm ∨ f.transaction ≠ auth.expectedTransaction then s
    else if f.status ≠ 0 then destroyAuthData false s
    else if auth.algorithm = .sharedKey ∧ auth.expectedTransaction ≠ 4 then
      if f.challenge then {s with authData := some {auth with expectedTransaction := 4}} else s
    else {s with authData := some {auth with done := true,timeoutStarted := true}}

-- own: it is for this interface; proberesp: a probe response of the AP is known.
def rxMgmtProbeResp (len bssid : Nat) (own proberesp : Bool) (s : Sdata) : Sdata :=
  match s.authData with
  | none => s
  | some auth =>
    if own = false ∨ len < 24 + 12 ∨ proberesp = true ∨ bssid ≠ auth.bssid then s
    else {s with authData := some {auth with tries := 0,timeoutStarted := true}}

def rxMgmtDisconnect (len bssid : Nat) (s : Sdata) : Sdata :=
  if len < 24 + 2 ∨ s.associated ≠ some bssid then s else setDisassoc s

-- complete: the elements needed are there; moved: the state of the station entry; bandwidth and
-- curMaxBandwidth: what the capabilities make of it.
structure AssocFrame where
  len : Nat
  bssid : Nat
  status : Nat
  comeback : Bool
  suppRates : Bool
  complete : Bool
  moved : Bool
  bandwidth : RxBw
  curMaxBandwidth : RxBw

def assocSuccess (f : AssocFrame) (bssid : Nat) (s : Sdata) : Sdata × Bool :=
  if !f.suppRates || !f.complete || !hasSta bssid s then (s,false)
  else if !f.moved then (staInfoDestroyAddr bssid s,false)
  else ({s with
    stas := s.stas.map fun sta => if sta.addr = bssid then {sta with
      bandwidth := f.bandwidth
      curMaxBandwidth := f.curMaxBandwidth} else sta
    associated := some bssid},true)

def rejectedTemporarily : Nat := 30

def rxMgmtAssocResp (f : AssocFrame) (s : Sdata) : Sdata :=
  match s.assocData with
  | none => s
  | some data =>
    if f.bssid ≠ data.bssid ∨ f.len < 24 + 6 then s
    else if f.status = rejectedTemporarily ∧ f.comeback = true then {s with assocData := some {data with timeoutStarted := true}}
    else if f.status ≠ 0 then destroyAssocData false s
    else
      let (s,associated) := assocSuccess f data.bssid s
      destroyAssocData associated s

def sendAssoc (l : Link) : Link := {l with flags := {l.flags with disableVht := l.flags.disableVht || l.flags.disableHt}}

def doAssoc (s : Sdata) : Sdata × Option Errno :=
  match s.assocData with
  | none => (s,some .inval)
  | some data =>
    let data := {data with tries := data.tries + 1}
    if assocMaxTries < data.tries then ({s with assocData := some data},some .timedOut)
    else ({s with link := sendAssoc s.link,assocData := some {data with timeoutStarted := true}},none)

-- The status of a frame (true for a probe request or an authentication frame), the timeouts that are over,
-- and that the AP answers no polls.
structure WorkAnswers where
  status : Option Bool
  authTimeout : Bool
  proberesp : Bool
  ssid : Bool
  assocTimeout : Bool
  lost : Bool

def workStatus (a : WorkAnswers) (s : Sdata) : Sdata :=
  match a.status,s.authData,s.assocData with
  | some true,some auth,_ => {s with authData := some {auth with timeoutStarted := true}}
  | some false,_,some data => {s with assocData := some {data with timeoutStarted := true}}
  | _,_,_ => s

def workAuth (a : WorkAnswers) (s : Sdata) : Sdata :=
  match s.authData with
  | none => s
  | some auth =>
    if !(auth.timeoutStarted && a.authTimeout) then s
    else if auth.done then destroyAuthData false s
    else
      match probeAuth a.proberesp a.ssid s with
      | (s,some _) => destroyAuthData false s
      | (s,none) => s

def workAssoc (a : WorkAnswers) (s : Sdata) : Sdata :=
  match s.assocData with
  | none => s
  | some data =>
    if !(data.timeoutStarted && a.assocTimeout) then s
    else if data.needBeacon && !s.haveBeacon then destroyAssocData false s
    else
      match doAssoc s with
      | (s,some _) => destroyAssocData false s
      | (s,none) => s

def staWork (a : WorkAnswers) (s : Sdata) : Sdata :=
  let s := workAssoc a (workAuth a (workStatus a s))
  if a.lost then setDisassoc s else s

structure Beacon where
  bssid : Nat
  onChannel : Bool
  same : Bool
  htCap : Option HtCap
  htOper : Option HtOperation
  vhtOper : Option VhtOperation
  ctx : Chanctx

def rxMgmtBeacon (cfg : Cfg80211) (sband : Sband) (b : Beacon) (s : Sdata) : Sdata :=
  if !s.link.chanctx || !b.onChannel then s
  else
    match s.assocData.filter fun data => data.needBeacon && data.bssid = b.bssid with
    | some data => {s with
      haveBeacon := true
      assocData := some {data with needBeacon := false,timeoutStarted := true}}
    | none =>
      if s.associated ≠ some b.bssid then s
      else if b.same then s
      else
        let (link,sta,err) := configBw cfg sband b.ctx (s.stas.find? fun sta => sta.addr = b.bssid) b.htCap b.htOper b.vhtOper s.link
        let s := {s with
          haveBeacon := true
          stas := s.stas.map fun old => if old.addr = b.bssid then sta.getD old else old
          link := link}
        if err.isSome then setDisassoc s else s

def mgdDeauth (bssid : Nat) (s : Sdata) : Sdata × Option Errno :=
  if (s.authData.map AuthData.bssid) = some bssid then (destroyAuthData false s,none)
  else if s.associated = some bssid then (setDisassoc s,none)
  else (s,some .notConn)

def mgdDisassoc (bssid : Nat) (s : Sdata) : Sdata × Option Errno :=
  if s.associated ≠ some bssid then (s,some .noLink) else (setDisassoc s,none)

def mgdStop (s : Sdata) : Sdata := destroyAuthData false (destroyAssocData false s)

def mgdQuiesce (wowlan : Bool) (s : Sdata) : Sdata :=
  let s := mgdStop s
  match s.associated with
  | none => s
  | some bssid => if wowlan then s else (mgdDeauth bssid s).1

-- Down: ieee80211_mgd_stop and sta_info_flush. A disconnect is __ieee80211_disconnect.
inductive Event where
  | auth (req : AuthRequest) (a : AuthAnswers)
  | assoc (req : AssocRequest) (a : AuthAnswers)
  | deauth (bssid : Nat)
  | disassoc (bssid : Nat)
  | rxProbeResp (len bssid : Nat) (own proberesp : Bool)
  | rxAuth (f : AuthFrame)
  | rxDisconnect (len bssid : Nat)
  | rxAssocResp (f : AssocFrame)
  | rxBeacon (b : Beacon)
  | work (a : WorkAnswers)
  | disconnect
  | quiesce (wowlan : Bool)
  | stop

def serve (cfg : Cfg80211) (sband : Sband) (hw : Hw) (s : Sdata) : Event → Sdata × Option Errno
  | .auth req a => mgdAuth cfg sband hw req a s
  | .assoc req a => mgdAssoc cfg sband hw req a s
  | .deauth bssid => mgdDeauth bssid s
  | .disassoc bssid => mgdDisassoc bssid s
  | .rxProbeResp len bssid own proberesp => (rxMgmtProbeResp len bssid own proberesp s,none)
  | .rxAuth f => (rxMgmtAuth f s,none)
  | .rxDisconnect len bssid => (rxMgmtDisconnect len bssid s,none)
  | .rxAssocResp f => (rxMgmtAssocResp f s,none)
  | .rxBeacon b => (rxMgmtBeacon cfg sband b s,none)
  | .work a => (staWork a s,none)
  | .disconnect => (setDisassoc s,none)
  | .quiesce wowlan => (mgdQuiesce wowlan s,none)
  | .stop => ({mgdStop s with stas := []},none)

def step (cfg : Cfg80211) (sband : Sband) (hw : Hw) (s : Sdata) (e : Event) : Sdata := (serve cfg sband hw s e).1

end Mac80211.Mlme

import Mac80211.TkipTx

namespace Mac80211.Tkip
open Ieee80211 Memo

structure MichaelMicCtx where
  l : UInt32
  r : UInt32

def rol32 (w : UInt32) (n : UInt32) : UInt32 := (w <<< n) ||| (w >>> (32 - n))

def michaelBlock (m : MichaelMicCtx) (val : UInt32) : MichaelMicCtx :=
  let l := m.l ^^^ val
  let r := m.r ^^^ rol32 l 17
  let l := l + r
  let r := r ^^^ (((l &&& 0xff00ff00) >>> 8) ||| ((l &&& 0x00ff00ff) <<< 8))
  let l := l + r
  let r := r ^^^ rol32 l 3
  let l := l + r
  let r := r ^^^ rol32 l 30
  ⟨l + r,r⟩

def getDA (h : Hdr) : EthAddr := if h.frameControl &&& fctlToDs != 0 then h.addr3 else h.addr1

def getSA (h : Hdr) : EthAddr :=
  if hasA4 h.frameControl then h.addr4
  else if h.frameControl &&& fctlFromDs != 0 then h.addr3
  else h.addr2

def michaelMicHdr (key : Nat → UInt8) (h : Hdr) : MichaelMicCtx :=
  let da := fun i => (getDA h).toList.getD i 0
  let sa := fun i => (getSA h).toList.getD i 0
  let m := MichaelMicCtx.mk (le32 key 0) (le32 key 4)
  let m := michaelBlock m (le32 da 0)
  let m := michaelBlock m ((le16 da 4).toUInt32 ||| ((le16 sa 0).toUInt32 <<< 16))
  let m := michaelBlock m (le32 sa 2)
  michaelBlock m (qosTid h).toUInt32

-- The blocks of four bytes, and the rest with 0x5a and zeros.
def michaelData (m : MichaelMicCtx) : List UInt8 → MichaelMicCtx
  | a :: b :: c :: d :: rest => michaelData (michaelBlock m (le32 (fun i => [a,b,c,d].getD i 0) 0)) rest
  | left => michaelBlock (michaelBlock m (left.foldr (fun b val => (val <<< 8) ||| b.toUInt32) 0x5a)) 0

def michaelMic (key : Nat → UInt8) (h : Hdr) (data : List UInt8) : List UInt8 :=
  let m := michaelData (michaelMicHdr key h) data
  putLe32 m.l ++ putLe32 m.r

inductive TkipDecrypt where
  | short
  | noExtIv
  | invalidKeyidx
  | replay
  | badIcv
  | ok (iv32 : UInt32) (iv16 : UInt16) (data : Option (List UInt8))

-- What the phase 1 key was last computed for, if it was cached.
structure Use where
  ta : EthAddr
  iv32 : UInt32
  p1k : P1k
  hit : Bool
  cached : Option (EthAddr × UInt32)

def TkipCtx.computedFor (ctx : TkipCtx) : Option (EthAddr × UInt32) := ctx.p1kTa.map fun ta => (ta,ctx.p1kIv32)

def TkipKey.setRx (key : TkipKey) (queue : Nat) (ctx : TkipCtx) : TkipKey := {key with rx := Function.update key.rx queue ctx}

def phase1Needed (ctx : TkipCtx) (iv32 : UInt32) : Bool := ctx.state == .notInit || ctx.iv32 != iv32

def updateTkipKey (hwUpdate : Bool) (ctx : TkipCtx) : TkipCtx :=
  if hwUpdate && ctx.state != .phase1HwUploaded then {ctx with state := .phase1HwUploaded} else ctx

def nextCtx (hwUpdate : Bool) (tk : Tk) (ctx : TkipCtx) (ta : EthAddr) (iv32 : UInt32) : TkipCtx :=
  updateTkipKey hwUpdate (if phase1Needed ctx iv32 then tkipMixingPhase1 tk ctx ta iv32 else ctx)

-- hwUpdate: the key is in hardware, and the driver wants to be told of phase 1 keys.
def tkipDecryptData (crypto : Crypto) (hwUpdate : Bool) (key : TkipKey) (payload : List UInt8) (ta : EthAddr) (onlyIv : Bool)
    (queue : Nat) : TkipKey × TkipDecrypt × Option Use :=
  let iv16 : UInt16 := ((payload.getD 0 0).toUInt16 <<< 8) ||| (payload.getD 2 0).toUInt16
  let keyid := payload.getD 3 0
  let iv32 := frameIv32 payload
  let ctx := key.rx queue
  if payload.length < 12 then (key,.short,none)
  else if keyid &&& 0x20 = 0 then (key,.noExtIv,none)
  else if keyid >>> 6 ≠ key.keyidx then (key,.invalidKeyidx,none)
  else if ctx.state ≠ .notInit ∧ (iv32 < ctx.iv32 ∨ (iv32 = ctx.iv32 ∧ iv16 ≤ ctx.iv16)) then (key,.replay,none)
  else if onlyIv then (key.setRx queue {ctx with state := .phase1HwUploaded},.ok iv32 iv16 none,none)
  else
    let next := nextCtx hwUpdate key.tk ctx ta iv32
    let res := match wepDecryptData crypto (phase2 key.tk next.p1k iv16) (payload.drop 8) with
      | none => .badIcv
      | some data => .ok iv32 iv16 (some data)
    (key.setRx queue next,res,some ⟨ta,iv32,next.p1k,!phase1Needed ctx iv32,ctx.computedFor⟩)

structure TkipFrame where
  mpdu : Mpdu
  sta : Option EthAddr
  linear : Bool
  decrypted : Bool

structure RxState where
  key : TkipKey
  tkipIv32 : UInt32
  tkipIv16 : UInt16

def cryptoTkipDecrypt (crypto : Crypto) (hwUpdate : Bool) (s : RxState) (f : TkipFrame) : RxState × Option Use :=
  if !isData f.mpdu.hdr.frameControl then (s,none)
  else
    match f.sta with
    | none => (s,none)
    | some ta =>
      if f.mpdu.body.length < 12 then (s,none)
      else if !f.linear then (s,none)
      else
        match tkipDecryptData crypto hwUpdate s.key f.mpdu.body ta f.decrypted (securityIdx f.mpdu.hdr) with
        | (key,.ok iv32 iv16 _,use) => (⟨key,iv32,iv16⟩,use)
        | (key,_,use) => ({s with key := key},use)

structure MichaelFrame where
  mpdu : Mpdu
  mmicStripped : Bool
  ivStripped : Bool
  mmicError : Bool
  decrypted : Bool
  ap : Bool
  linear : Bool

def updateIv (s : RxState) (queue : Nat) : RxState :=
  {s with key := s.key.setRx queue {s.key.rx queue with iv32 := s.tkipIv32,iv16 := s.tkipIv16}}

-- What is not RX_CONTINUE drops the frame.
def rxHMichaelMicVerify (s : RxState) (f : MichaelFrame) : RxState :=
  let failed := {s with key := {s.key with micFailures := s.key.micFailures + 1}}
  let data := f.mpdu.body.take (f.mpdu.body.length - 8)
  if !isDataPresent f.mpdu.hdr.frameControl then s
  else if f.mmicStripped || f.ivStripped then
    if f.mmicError then s
    else if !f.ivStripped then updateIv s (securityIdx f.mpdu.hdr)
    else s
  else if !f.decrypted then s
  else if f.ap && s.key.keyidx != 0 then s
  else if f.mmicError then failed
  else if f.mpdu.body.length < 8 then s
  else if !f.linear then s
  else if michaelMic s.key.rxMicKey f.mpdu.hdr data ≠ f.mpdu.body.drop (f.mpdu.body.length - 8) then failed
  else updateIv s (securityIdx f.mpdu.hdr)

inductive RxEvent where
  | decrypt (f : TkipFrame)
  | verify (f : MichaelFrame)

def rxStep (crypto : Crypto) (hwUpdate : Bool) (s : RxState) : RxEvent → RxState × List Use
  | .decrypt f => ((cryptoTkipDecrypt crypto hwUpdate s f).1,(cryptoTkipDecrypt crypto hwUpdate s f).2.toList)
  | .verify f => (rxHMichaelMicVerify s f,[])

def rxRun (crypto : Crypto) (hwUpdate : Bool) : List RxEvent → RxState → RxState × List Use
  | [],s => (s,[])
  | e :: events,s =>
    let out := rxStep crypto hwUpdate s e
    let rest := rxRun crypto hwUpdate events out.1
    (rest.1,out.2 ++ rest.2)

def TkipCtx.cell (ctx : TkipCtx) : Cell (EthAddr × UInt32) P1k := ⟨ctx.computedFor,ctx.p1k⟩

def mixed (tk : Tk) (k : EthAddr × UInt32) : P1k := phase1 tk k.1 k.2

def RxCurrent (key : TkipKey) : Prop := ∀ q, (key.rx q).cell.Holds (mixed key.tk)

def Looked (tk : Tk) (u : Use) : Prop := ∃ c : Cell (EthAddr × UInt32) P1k, c.Holds (mixed tk) ∧ c.key = u.cached ∧
  u.p1k = (c.look (mixed tk) u.hit (u.ta,u.iv32)).value

theorem setRx_current (current : RxCurrent key) (holds : ctx.cell.Holds (mixed key.tk)) (queue : Nat) :
    RxCurrent (key.setRx queue ctx) := by
  intro q
  show ((Function.update key.rx queue ctx) q).cell.Holds (mixed key.tk)
  by_cases same : q = queue
  · rw [same,Function.update_self]
    exact holds
  · rw [Function.update_of_ne same]
    exact current q

theorem updateTkipKey_cell (hwUpdate : Bool) (ctx : TkipCtx) : (updateTkipKey hwUpdate ctx).cell = ctx.cell := by
  unfold updateTkipKey
  split
  · rfl
  · rfl

theorem nextCtx_cell (hwUpdate : Bool) (tk : Tk) (ctx : TkipCtx) (ta : EthAddr) (iv32 : UInt32) :
    (nextCtx hwUpdate tk ctx ta iv32).cell = ctx.cell.look (mixed tk) (!phase1Needed ctx iv32) (ta,iv32) := by
  unfold nextCtx
  rw [updateTkipKey_cell]
  cases phase1Needed ctx iv32 with
  | true => rfl
  | false => rfl

theorem tkipDecryptData_current (current : RxCurrent key) (crypto : Crypto) (hwUpdate : Bool) (payload : List UInt8) (ta : EthAddr)
    (onlyIv : Bool) (queue : Nat) :
    RxCurrent (tkipDecryptData crypto hwUpdate key payload ta onlyIv queue).1 ∧
    (tkipDecryptData crypto hwUpdate key payload ta onlyIv queue).1.tk = key.tk ∧
    ∀ u, (tkipDecryptData crypto hwUpdate key payload ta onlyIv queue).2.2 = some u → Looked key.tk u := by
  unfold tkipDecryptData
  simp only
  split
  · exact ⟨current,rfl,nofun⟩
  split
  · exact ⟨current,rfl,nofun⟩
  split
  · exact ⟨current,rfl,nofun⟩
  split
  · exact ⟨current,rfl,nofun⟩
  split
  · have held : ({key.rx queue with state := .phase1HwUploaded} : TkipCtx).cell.Holds (mixed key.tk) := current queue
    exact ⟨setRx_current current held queue,rfl,nofun⟩
  · have looked := nextCtx_cell hwUpdate key.tk (key.rx queue) ta (frameIv32 payload)
    have held : (nextCtx hwUpdate key.tk (key.rx queue) ta (frameIv32 payload)).cell.Holds (mixed key.tk) := by
      rw [looked]
      exact look_holds (current queue) _ _
    refine ⟨setRx_current current held queue,rfl,?_⟩
    intro u used
    cases used
    exact ⟨(key.rx queue).cell,current queue,rfl,congrArg Cell.value looked⟩

theorem rxStep_current (current : RxCurrent s.key) (crypto : Crypto) (hwUpdate : Bool) (e : RxEvent) :
    RxCurrent (rxStep crypto hwUpdate s e).1.key ∧ (rxStep crypto hwUpdate s e).1.key.tk = s.key.tk ∧
    ∀ u ∈ (rxStep crypto hwUpdate s e).2, Looked s.key.tk u := by
  cases e with
  | decrypt f =>
    simp only [rxStep]
    unfold cryptoTkipDecrypt
    split
    · exact ⟨current,rfl,nofun⟩
    split
    · exact ⟨current,rfl,nofun⟩
    rename_i ta _
    have done := tkipDecryptData_current current crypto hwUpdate f.mpdu.body ta f.decrypted (securityIdx f.mpdu.hdr)
    split
    · exact ⟨current,rfl,nofun⟩
    split
    · exact ⟨current,rfl,nofun⟩
    · obtain ⟨next,same,looked⟩ := done
      split
      case h_1 key iv32 iv16 data use made =>
        rw [made] at next same looked
        exact ⟨next,same,fun u held => looked u (Option.mem_toList.mp held)⟩
      case h_2 key res use _ made =>
        rw [made] at next same looked
        exact ⟨next,same,fun u held => looked u (Option.mem_toList.mp held)⟩
  | verify f =>
    have held : ({s.key.rx (securityIdx f.mpdu.hdr) with iv32 := s.tkipIv32,iv16 := s.tkipIv16} : TkipCtx).cell.Holds
      (mixed s.key.tk) := current _
    have updated : RxCurrent (updateIv s (securityIdx f.mpdu.hdr)).key := setRx_current current held _
    have keeps : RxCurrent (rxHMichaelMicVerify s f).key ∧ (rxHMichaelMicVerify s f).key.tk = s.key.tk := by
      unfold rxHMichaelMicVerify
      simp only
      repeat' split
      all_goals first | exact ⟨current,rfl⟩ | exact ⟨updated,rfl⟩
    exact ⟨keeps.1,keeps.2,nofun⟩

theorem phase1Round_injective (tk : Tk) (i : Nat) (same : phase1Round tk p i = phase1Round tk p' i) : p = p' := by
  obtain ⟨_,_,_,_,_⟩ := p
  simp only [phase1Round,P1k.mk.injEq] at same
  obtain ⟨s0,s1,s2,s3,s4⟩ := same
  rw [s0] at s1 s2 s3 s4
  rw [s1] at s2 s3 s4
  rw [s2] at s3 s4
  rw [s3] at s4
  have e4 := (UInt16.add_left_inj _).mp s4
  rw [e4] at s0
  rw [(UInt16.add_left_inj _).mp s0,(UInt16.add_left_inj _).mp s1,(UInt16.add_left_inj _).mp s2,
    (UInt16.add_left_inj _).mp s3,e4]

theorem rounds_injective (tk : Tk) (rounds : List Nat)
    (same : rounds.foldl (phase1Round tk) p = rounds.foldl (phase1Round tk) p') : p = p' := by
  induction rounds generalizing p p' with
  | nil => exact same
  | cons i rounds ih => exact phase1Round_injective tk i (ih same)

theorem ta_byte (ta : EthAddr) (i : Nat) (inside : i < 6) : ta.toList.getD i 0 = ta[i] := by
  simp [List.getD_eq_getElem?_getD,inside]

theorem phase1Start_injective (same : phase1Start ta iv32 = phase1Start ta' iv32') : (ta,iv32) = (ta',iv32') := by
  unfold phase1Start at same
  simp only [P1k.mk.injEq] at same
  obtain ⟨low,high,s0,s2,s4⟩ := same
  have number : iv32 = iv32' := by
    apply UInt32.toNat_inj.mp
    have mask : ∀ n : Nat, n &&& 65535 = n % 65536 := fun n => Nat.and_two_pow_sub_one_eq_mod n 16
    have low := congrArg UInt16.toNat low
    have high := congrArg UInt16.toNat high
    have bound := iv32.toNat_lt
    have bound' := iv32'.toNat_lt
    simp [mask] at low high
    omega
  have bytes : ∀ i, i < 5 → le16 (fun i => ta.toList.getD i 0) i = le16 (fun i => ta'.toList.getD i 0) i →
      ta.toList.getD i 0 = ta'.toList.getD i 0 ∧ ta.toList.getD (i + 1) 0 = ta'.toList.getD (i + 1) 0 := by
    intro i _ same
    have value := congrArg UInt16.toNat same
    rw [le16_toNat,le16_toNat] at value
    constructor
    · apply UInt8.toNat_inj.mp
      have low := (ta.toList.getD i 0).toNat_lt
      have low' := (ta'.toList.getD i 0).toNat_lt
      omega
    · apply UInt8.toNat_inj.mp
      have low := (ta.toList.getD i 0).toNat_lt
      have low' := (ta'.toList.getD i 0).toNat_lt
      omega
  obtain ⟨b0,b1⟩ := bytes 0 (by decide) s0
  obtain ⟨b2,b3⟩ := bytes 2 (by decide) s2
  obtain ⟨b4,b5⟩ := bytes 4 (by decide) s4
  rw [number]
  refine congrArg (·,iv32') (Vector.ext fun i inside => ?_)
  rw [← ta_byte ta i inside,← ta_byte ta' i inside]
  match i,inside with
  | 0,_ => exact b0
  | 1,_ => exact b1
  | 2,_ => exact b2
  | 3,_ => exact b3
  | 4,_ => exact b4
  | 5,_ => exact b5

theorem mixed_injective (tk : Tk) : Function.Injective (mixed tk) := by
  rintro ⟨_,_⟩ ⟨_,_⟩ same
  exact phase1Start_injective (rounds_injective tk _ same)

def Use.Fits (u : Use) : Prop := u.hit = true → u.cached = some (u.ta,u.iv32)

theorem rxRun_looked (current : RxCurrent s.key) (crypto : Crypto) (hwUpdate : Bool) (events : List RxEvent) :
    ∀ u ∈ (rxRun crypto hwUpdate events s).2, Looked s.key.tk u := by
  induction events generalizing s with
  | nil => exact nofun
  | cons e events ih =>
    obtain ⟨next,same,looked⟩ := rxStep_current current crypto hwUpdate e
    intro u held
    rcases List.mem_append.mp held with now | later
    · exact looked u now
    · have rest := ih next u later
      rwa [same] at rest

theorem rx_key_exact (fresh : ∀ q, (s.key.rx q).p1kTa = none) (crypto : Crypto) (hwUpdate : Bool) (events : List RxEvent) :
    ∀ u ∈ (rxRun crypto hwUpdate events s).2, (u.Fits → u.p1k = phase1 s.key.tk u.ta u.iv32) ∧
      (u.cached ≠ none → u.p1k = phase1 s.key.tk u.ta u.iv32 → u.Fits) := by
  have current : RxCurrent s.key := by
    intro q k same
    change TkipCtx.computedFor _ = _ at same
    unfold TkipCtx.computedFor at same
    rw [fresh q] at same
    cases same
  intro u held
  obtain ⟨c,holds,cached,value⟩ := rxRun_looked current crypto hwUpdate events u held
  rw [value]
  unfold Use.Fits
  rw [← cached]
  exact ⟨look_value holds,fun filled => (look_exact holds (mixed_injective _) filled).mp⟩

namespace Sample

def arrives (iv32 : UInt32) (iv16 : UInt16) (icv : UInt8) : RxEvent :=
  .decrypt ⟨{frame with body := writeTkipIv iv16 ++ [0x20] ++ putLe32 iv32 ++ [1,2,3,0,0,0,icv]},some ta,true,false⟩

def receiver : RxState := ⟨key,0,0⟩

def afterForged : List RxEvent := [arrives 1 1 9,arrives 0 1 0]

end Sample

theorem stale_key : (rxRun Sample.plain false Sample.afterForged Sample.receiver).2.map (fun u => (u.ta,u.iv32,u.p1k)) =
    [(Sample.ta,1,phase1 Sample.tk Sample.ta 1),(Sample.ta,0,phase1 Sample.tk Sample.ta 1)] ∧
    phase1 Sample.tk Sample.ta 1 ≠ phase1 Sample.tk Sample.ta 0 := by decide +kernel

theorem rx_key_exact_sample :
    (rxRun Sample.plain false [Sample.arrives 0 1 0,Sample.arrives 1 0 0] Sample.receiver).2.map Use.iv32 = [0,1] ∧
    ∀ u ∈ (rxRun Sample.plain false [Sample.arrives 0 1 0,Sample.arrives 1 0 0] Sample.receiver).2,
      (u.Fits → u.p1k = phase1 Sample.tk u.ta u.iv32) ∧ (u.cached ≠ none → u.p1k = phase1 Sample.tk u.ta u.iv32 → u.Fits) :=
  ⟨by decide,rx_key_exact (s := Sample.receiver) (fun _ => rfl) Sample.plain false _⟩

end Mac80211.Tkip

import Mac80211.Chanctx
import Mac80211.Loops
import Mac80211.Nearest

namespace Mac80211.TxRates

open Chan (Width)
open Function (update update_of_ne update_self)
open Nearest

structure Flags where
  useRtsCts : Bool
  useCtsProtect : Bool
  useShortPreamble : Bool
  mcs : Bool
  width40 : Bool
  vhtMcs : Bool
  others : BitVec 5

-- struct ieee80211_tx_rate; count has five bits.
structure TxRate where
  idx : Int
  count : BitVec 5
  flags : Flags

def TxRate.legacy (r : TxRate) : Bool := !r.flags.mcs && !r.flags.vhtMcs

structure TableRate where
  idx : Int
  count : BitVec 8
  countCts : BitVec 8
  countRts : BitVec 8
  flags : Flags

structure Sta where
  suppRates : Nat → BitVec 32
  rxMask : Vector (BitVec 8) 10
  rates : Option (Nat → TableRate)

structure Bitrate where
  flags : BitVec 32
  bitrate : Nat

def shortPreamble : BitVec 32 := 1

def erpG : BitVec 32 := 0x10

-- cfg80211 registers no band without rates, or with more than 32.
structure Sband where
  twoGhz : Bool
  bitrates : List Bitrate
  one : 0 < bitrates.length
  few : bitrates.length ≤ 32

-- rateFlags and hwRateFlags are ieee80211_chandef_rate_flags of the channel of the BSS and of the device.
structure Sdata where
  rcRateidxMask : Nat → BitVec 32
  rcHasMcsMask : Nat → Bool
  rcRateidxMcsMask : Nat → Vector (BitVec 8) 10
  bands : Nat → Sband
  width : Width
  rateFlags : BitVec 32
  hwRateFlags : BitVec 32
  basicRates : BitVec 32
  maxRateTries : BitVec 8

structure Info where
  band : Nat
  noCckRate : Bool
  noAck : Bool
  useRts : Bool
  useCtsProt : Bool
  shortPreamble : Bool
  skipTable : Bool
  rtsCtsRateIdx : Nat

-- mask & (1 << j), where the machine takes j modulo 32.
def bit (mask : BitVec 32) (j : Nat) : Bool := mask.getLsbD (j % 32)

def fits (flags : BitVec 32) (b : Bitrate) : Bool := flags &&& b.flags == flags

def takes (s : Sdata) (sta : Option Sta) (info : Info) (b : Bitrate) (i : Nat) : Bool :=
  let flags := if (s.bands info.band).twoGhz && info.noCckRate then s.hwRateFlags ||| erpG else s.hwRateFlags
  bit (s.rcRateidxMask info.band) i && fits flags b && sta.all fun sta => bit (sta.suppRates info.band) i

def rateControlSendLow (s : Sdata) (sta : Option Sta) (info : Info) (rate : TxRate) : TxRate :=
  {rate with
    idx := ((s.bands info.band).bitrates.zipIdx.find? fun b => takes s sta info b.1 b.2).elim 0 fun b => b.2
    count := if info.noAck then 1 else s.maxRateTries.setWidth 5}

def rateIdxMatchLegacyMask (nBitrates : Nat) (mask : BitVec 32) (idx : Nat) : Option Nat := search (bit mask) idx nBitrates

def bytesDown (mask : Vector (BitVec 8) 10) (rbit : Nat) : (i : Nat) → i < 10 → Option Nat
  | 0,_ => down mask[0].getLsbD rbit
  | i + 1,inside => ((down mask[i + 1].getLsbD rbit).map ((i + 1) * 8 + ·)).or (bytesDown mask 7 i (by omega))

def bytesUp (mask : Vector (BitVec 8) 10) : Nat → Nat → Nat → Option Nat
  | 0,_,_ => none
  | n + 1,i,rbit =>
    if inside : i < 10 then ((up mask[i].getLsbD rbit (8 - rbit)).map (i * 8 + ·)).or (bytesUp mask n (i + 1) 0)
    else none

-- A negative index does not get here.
def rateIdxMatchMcsMask (mask : Vector (BitVec 8) 10) (idx : Nat) : Option Nat :=
  if inside : idx / 8 < 10 then
    (bytesDown mask (idx % 8) (idx / 8) inside).or (bytesUp mask 10 ((idx + 1) / 8) ((idx + 1) % 8))
  else none

def altRate (rate : TxRate) (idx : Nat) (mcs width40 : Bool) : TxRate :=
  {rate with
    idx := idx
    flags := {rate.flags with mcs := mcs,width40 := width40,vhtMcs := false,others := 0}}

def noHt (width : Width) : Bool := width == .noHt20 || width == .w5 || width == .w10

def rateIdxMatchMask (n : Nat) (width : Width) (mask : BitVec 32) (mcsMask : Vector (BitVec 8) 10) (rate : TxRate) : TxRate :=
  if rate.flags.mcs then
    match rateIdxMatchMcsMask mcsMask rate.idx.toNat with
    | some j => {rate with idx := j}
    | none =>
      match rateIdxMatchLegacyMask n mask 0 with
      | some j => altRate rate j false false
      | none => rate
  else if rate.flags.vhtMcs then rate
  else
    match rateIdxMatchLegacyMask n mask rate.idx.toNat with
    | some j => {rate with idx := j}
    | none =>
      if noHt width then rate
      else
        match rateIdxMatchMcsMask mcsMask 0 with
        | some j => altRate rate j true (width == .w40)
        | none => rate

-- The rates of the band that the channel has.
def Sdata.mask (s : Sdata) (band : Nat) : BitVec 32 :=
  (s.bands band).bitrates.zipIdx.foldl
    (fun mask b => if fits s.rateFlags b.1 then mask else mask &&& ~~~BitVec.twoPow 32 b.2) (s.rcRateidxMask band)

def Sdata.defaultMask (s : Sdata) (band : Nat) : Bool :=
  s.mask band == (1#32 <<< ((s.bands band).bitrates.length % 32)) - 1 && !s.rcHasMcsMask band

def Sdata.staMask (s : Sdata) (sta : Option Sta) (band : Nat) : BitVec 32 :=
  sta.elim (s.mask band) fun sta => s.mask band &&& sta.suppRates band

def Sdata.mcsMask (s : Sdata) (sta : Option Sta) (band : Nat) : Vector (BitVec 8) 10 :=
  let mask := if s.rcHasMcsMask band then s.rcRateidxMcsMask band else Vector.replicate 10 0xff
  sta.elim mask fun sta => mask.zipWith (· &&& ·) sta.rxMask

def Sdata.matched (s : Sdata) (sta : Option Sta) (band : Nat) : TxRate → TxRate :=
  rateIdxMatchMask (s.bands band).bitrates.length s.width (s.staMask sta band) (s.mcsMask sta band)

def rateControlApplyMask (s : Sdata) (sta : Option Sta) (band : Nat) (rates : Nat → TxRate) (maxRates : Int) : Nat → TxRate :=
  if s.defaultMask band then rates
  else forBreak (fun i rates =>
    if (rates i).idx < 0 then (rates,true) else (update rates i (s.matched sta band (rates i)),false)) maxRates.toNat 0 rates

def offered (sta : Option Sta) (info : Info) (i : Nat) (own dest : TxRate) : TxRate :=
  if 0 ≤ own.idx ∧ own.count ≠ 0 then own
  else
    match if info.skipTable then none else sta.bind Sta.rates with
    | some table =>
      let rate := table i
      ⟨rate.idx,(if info.useRts then rate.countRts else if info.useCtsProt then rate.countCts else rate.count).setWidth 5,rate.flags⟩
    | none => {dest with idx := -1,count := 0}

def unusable (r : TxRate) : Bool := r.idx < 0 || r.count == 0

-- control is info->control.rates where rates is another array.
def rateControlFillStaTable (sta : Option Sta) (info : Info) (control : Option (Nat → TxRate)) (rates : Nat → TxRate)
    (maxRates : Int) : Nat → TxRate :=
  forBreak (fun i rates =>
    let rate := offered sta info i (control.getD rates i) (rates i)
    (update rates i rate,unusable rate)) (min maxRates 4).toNat 0 rates

-- none is a read outside of bitrates.
def fasterBasic (bitrates : List Bitrate) (basic : BitVec 32) (rate : Bitrate) (baserate i : Nat) : Option Nat :=
  if !basic.getLsbD i then some baserate
  else bitrates[i]?.bind fun b =>
    if rate.bitrate < b.bitrate then some baserate
    else bitrates[baserate]?.map fun base => if base.bitrate < b.bitrate then i else baserate

def rtsCtsRate (bitrates : List Bitrate) (basic : BitVec 32) (idx : Int) : Option Nat :=
  if idx < 0 then none
  else bitrates[idx.toNat]?.bind fun rate =>
    (List.range bitrates.length).foldlM (fasterBasic bitrates basic rate) ((up basic.getLsbD 0 32).getD 0)

structure Fixup where
  info : Info
  inval : Bool
  rates : Nat → TxRate

def fixupEntry (bitrates : List Bitrate) (f : Fixup) (i : Nat) : Fixup :=
  let r := f.rates i
  if f.inval then {f with rates := update f.rates i {r with idx := -1}}
  else if r.idx < 0 then {f with inval := true}
  else if r.flags.mcs then
    if !r.flags.useRtsCts && f.info.useCtsProt then {f with rates := update f.rates i {r with flags.useCtsProtect := true}}
    else f
  else if r.flags.vhtMcs then f
  else
    let rts := r.flags.useRtsCts || f.info.useRts
    let info := {f.info with useCtsProt := f.info.useCtsProt && !f.info.useRts}
    match bitrates[r.idx.toNat]? with
    | none => {f with
        info := info
        rates := update f.rates i {r with idx := -1,flags.useRtsCts := rts}}
    | some rate => {f with
        info := info
        rates := update f.rates i {r with
          flags := {r.flags with
            useRtsCts := rts
            useShortPreamble := r.flags.useShortPreamble || info.shortPreamble && rate.flags &&& shortPreamble != 0
            useCtsProtect := r.flags.useCtsProtect || !rts && info.useCtsProt && rate.flags &&& erpG != 0}}}

-- misread: bitrates was read outside; the index of the RTS rate is any one then.
structure Chain where
  rates : Nat → TxRate
  control : Option (Nat → TxRate)
  info : Info
  misread : Bool

def rateFixupRatelist (s : Sdata) (info : Info) (control : Option (Nat → TxRate)) (rates : Nat → TxRate) (maxRates : Int) : Chain :=
  let bitrates := (s.bands info.band).bitrates
  let rts := if (rates 0).legacy then rtsCtsRate bitrates s.basicRates (rates 0).idx else some info.rtsCtsRateIdx
  let f := (List.range maxRates.toNat).foldl (fixupEntry bitrates)
    ⟨{info with rtsCtsRateIdx := rts.getD info.rtsCtsRateIdx},false,rates⟩
  ⟨f.rates,control,f.info,rts.isNone⟩

def getTxRates (vif : Option Sdata) (sta : Option Sta) (data : Bool) (info : Info) (control : Option (Nat → TxRate))
    (dest : Nat → TxRate) (maxRates : Int) : Chain :=
  let dest := rateControlFillStaTable sta info control dest maxRates
  match vif with
  | none => ⟨dest,control,info,false⟩
  | some s =>
    let dest := if data then rateControlApplyMask s sta info.band dest maxRates else dest
    let low := rateControlSendLow s sta info
    let chain : Chain :=
      if 0 ≤ (dest 0).idx then ⟨dest,control,info,false⟩
      else
        match control with
        | none => ⟨update dest 0 (low (dest 0)),none,{info with skipTable := true},false⟩
        | some rates => ⟨dest,some (update rates 0 (low (rates 0))),{info with skipTable := true},false⟩
    if sta.isNone then chain else rateFixupRatelist s chain.info chain.control chain.rates maxRates

def htBit (mask : Vector (BitVec 8) 10) (k : Nat) : Bool := if inside : k / 8 < 10 then mask[k / 8].getLsbD (k % 8) else false

section search

theorem htBit_at (inside : i < 10) (small : j < 8) : htBit mask (i * 8 + j) = mask[i].getLsbD j := by
  have byte : (i * 8 + j) / 8 = i := by omega
  have place : (i * 8 + j) % 8 = j := by omega
  simp [htBit,byte,place,inside]

theorem bytesDown_down (small : rbit < 8) (inside : i < 10) :
    bytesDown mask rbit i inside = down (htBit mask) (i * 8 + rbit) := by
  induction i generalizing rbit with
  | zero =>
    rw [bytesDown,Nat.zero_mul,Nat.zero_add]
    exact down_congr fun k below => (Nat.zero_add k ▸ htBit_at (j := k) inside (by omega)).symm
  | succ i ih =>
    rw [bytesDown,ih (by omega),show (i + 1) * 8 + rbit = i * 8 + 7 + 1 + rbit by omega,down_split,
      show i * 8 + 7 + 1 = (i + 1) * 8 by omega]
    rw [down_congr fun k below => (htBit_at inside (by omega)).symm]

theorem bytesUp_up (small : rbit < 8) (enough : 10 ≤ i + n) :
    bytesUp mask n i rbit = up (htBit mask) (i * 8 + rbit) (80 - (i * 8 + rbit)) := by
  induction n generalizing i rbit with
  | zero => rw [bytesUp,show 80 - (i * 8 + rbit) = 0 by omega,up]
  | succ n ih =>
    rw [bytesUp]
    by_cases inside : i < 10
    · rw [dif_pos inside,ih (by decide) (by omega),show 80 - (i * 8 + rbit) = 8 - rbit + (80 - ((i + 1) * 8 + 0)) by omega,up_split,
        show i * 8 + rbit + (8 - rbit) = (i + 1) * 8 + 0 by omega]
      rw [up_congr fun k large below => (htBit_at inside (by omega)).symm]
    · rw [dif_neg inside,show 80 - (i * 8 + rbit) = 0 by omega,up]

theorem rateIdxMatchMcsMask_search (mask : Vector (BitVec 8) 10) (idx : Nat) :
    rateIdxMatchMcsMask mask idx = if idx < 80 then search (htBit mask) idx 80 else none := by
  unfold rateIdxMatchMcsMask
  by_cases inside : idx / 8 < 10
  · rw [dif_pos inside,if_pos (by omega),bytesDown_down (by omega),bytesUp_up (by omega) (by omega),search,
      show idx / 8 * 8 + idx % 8 = idx by omega,show (idx + 1) / 8 * 8 + (idx + 1) % 8 = idx + 1 by omega]
  · rw [dif_neg inside,if_neg (by omega)]

end search

-- A legacy rate that the band does not have.
def Busted (n : Nat) (r : TxRate) : Prop := r.legacy = true ∧ (n : Int) ≤ r.idx

-- The place chosen for sel among those of its own kind, or else among the others if it may fall back on them.
structure Chosen (own other : Nat → Prop) (falls : Prop) (sel out : Nat) (isOwn isOther : Bool) : Prop where
  chosen : (∃ k, own k) → isOwn = true ∧ Best own sel out
  fallback : falls → (¬∃ k, own k) → (∃ k, other k) → isOther = true ∧ Best other 0 out

structure Enforced (width : Width) (legacy ht : Nat → Prop) (sel out : TxRate) : Prop where
  mcs : sel.flags.mcs = true → Chosen ht legacy True sel.idx.toNat out.idx.toNat out.flags.mcs out.legacy
  band : sel.legacy = true → Chosen legacy ht (noHt width = false) sel.idx.toNat out.idx.toNat out.legacy out.flags.mcs

def Legacy (n : Nat) (mask : BitVec 32) (j : Nat) : Prop := j < n ∧ bit mask j = true

def Ht (mask : Vector (BitVec 8) 10) (k : Nat) : Prop := k < 80 ∧ htBit mask k = true

section mask
variable {r : TxRate}

theorem legacy_kind : r.legacy = true ↔ r.flags.mcs = false ∧ r.flags.vhtMcs = false := by simp [TxRate.legacy]

inductive Matched (n : Nat) (width : Width) (mask : BitVec 32) (mcsMask : Vector (BitVec 8) 10) (r : TxRate) : TxRate → Prop
  | ht (j : Nat) (mcs : r.flags.mcs = true) (small : r.idx.toNat < 80) (found : search (htBit mcsMask) r.idx.toNat 80 = some j) :
    Matched n width mask mcsMask r {r with idx := j}
  | htLegacy (j : Nat) (mcs : r.flags.mcs = true) (none : r.idx.toNat < 80 → ¬∃ k, Ht mcsMask k)
    (found : search (bit mask) 0 n = some j) : Matched n width mask mcsMask r (altRate r j false false)
  | htKept (mcs : r.flags.mcs = true) (none : r.idx.toNat < 80 → ¬∃ k, Ht mcsMask k) (noLegacy : ¬∃ j, Legacy n mask j) :
    Matched n width mask mcsMask r r
  | vht (mcs : r.flags.mcs = false) (vht : r.flags.vhtMcs = true) : Matched n width mask mcsMask r r
  | legacy (j : Nat) (legacy : r.legacy = true) (found : search (bit mask) r.idx.toNat n = some j) :
    Matched n width mask mcsMask r {r with idx := j}
  | legacyHt (j : Nat) (legacy : r.legacy = true) (none : search (bit mask) r.idx.toNat n = none) (falls : noHt width = false)
    (found : search (htBit mcsMask) 0 80 = some j) : Matched n width mask mcsMask r (altRate r j true (width == .w40))
  | legacyKept (legacy : r.legacy = true) (none : search (bit mask) r.idx.toNat n = none)
    (noHt : noHt width = true ∨ ¬∃ k, Ht mcsMask k) : Matched n width mask mcsMask r r

theorem search_empty (none : search p sel n = none) : ¬∃ k, k < n ∧ p k = true := by
  rintro ⟨k,inside,there⟩
  cases there.symm.trans (search_none.mp none k (.inr inside))

theorem rateIdxMatchMask_matched (r : TxRate) : Matched n width mask mcsMask r (rateIdxMatchMask n width mask mcsMask r) := by
  have empty : ∀ {idx}, rateIdxMatchMcsMask mcsMask idx = none → idx < 80 → ¬∃ k, Ht mcsMask k := fun none small => by
    rw [rateIdxMatchMcsMask_search,if_pos small] at none
    exact search_empty none
  unfold rateIdxMatchMask
  split
  · next mcs =>
    split
    · next j found =>
      rw [rateIdxMatchMcsMask_search] at found
      obtain ⟨small,found⟩ := Option.ite_none_right_eq_some.mp found
      exact .ht j mcs small found
    · next none =>
      split
      · next j found => exact .htLegacy j mcs (empty none) found
      · next noLegacy => exact .htKept mcs (empty none) (search_empty noLegacy)
  · next mcs =>
    have mcs := Bool.eq_false_iff.mpr mcs
    split
    · next vht => exact .vht mcs vht
    · next vht =>
      have kind := legacy_kind.mpr ⟨mcs,Bool.eq_false_iff.mpr vht⟩
      split
      · next j found => exact .legacy j kind found
      · next none =>
        split
        · next narrow => exact .legacyKept kind none (.inl narrow)
        · next falls =>
          split
          · next j found =>
            rw [rateIdxMatchMcsMask_search] at found
            exact .legacyHt j kind none (Bool.eq_false_iff.mpr falls) found
          · next noHt => exact .legacyKept kind none (.inr (empty noHt (by decide)))

theorem Matched.valid (matched : Matched n width mask mcsMask r e) (valid : 0 ≤ r.idx) : 0 ≤ e.idx := by
  cases matched with
  | ht j | htLegacy j | legacy j | legacyHt j => exact Int.natCast_nonneg j
  | htKept | vht | legacyKept => exact valid

theorem Matched.enforced (matched : Matched n width mask mcsMask r e) (small : r.flags.mcs = true → r.idx.toNat < 80)
    (inBand : ¬Busted n e) : Enforced width (Legacy n mask) (Ht mcsMask) r e := by
  have other {x : TxRate} (mcs : x.flags.mcs = true) (kind : x.legacy = true) : False := by
    cases mcs.symm.trans (legacy_kind.mp kind).1
  have place {j : Nat} (kind : e.legacy = true) (idx : e.idx = j) : j < n := by
    by_contra out
    exact inBand ⟨kind,idx ▸ Int.ofNat_le.mpr (Nat.le_of_not_lt out)⟩
  cases matched with
  | ht j mcs small found =>
    have best := search_best found ((search_inside found).2.elim (fun below => by omega) id)
    exact ⟨fun _ => ⟨fun _ => ⟨mcs,best⟩,fun _ none => (none ⟨j,best.holds⟩).elim⟩,fun kind => (other mcs kind).elim⟩
  | htLegacy j mcs none found =>
    exact ⟨fun _ => ⟨fun there => (none (small mcs) there).elim,fun _ _ _ => ⟨rfl,search_best found (place rfl rfl)⟩⟩,
      fun kind => (other mcs kind).elim⟩
  | htKept mcs none noLegacy =>
    exact ⟨fun _ => ⟨fun there => (none (small mcs) there).elim,fun _ _ there => (noLegacy there).elim⟩,fun kind => (other mcs kind).elim⟩
  | vht mcs vht =>
    exact ⟨fun on => (by cases mcs.symm.trans on),fun kind => by cases vht.symm.trans (legacy_kind.mp kind).2⟩
  | legacy j kind found =>
    have best := search_best found (place kind rfl)
    exact ⟨fun mcs => (other mcs kind).elim,fun _ => ⟨fun _ => ⟨kind,best⟩,fun _ none => (none ⟨j,best.holds⟩).elim⟩⟩
  | legacyHt j kind none _ found =>
    have best := search_best found ((search_inside found).2.elim (fun below => by omega) id)
    exact ⟨fun mcs => (other mcs kind).elim,fun _ => ⟨fun there => (search_empty none there).elim,fun _ _ _ => ⟨rfl,best⟩⟩⟩
  | legacyKept kind none noHt =>
    exact ⟨fun mcs => (other mcs kind).elim,fun _ => ⟨fun there => (search_empty none there).elim,fun falls _ there =>
      noHt.elim (fun on => by cases falls.symm.trans on) fun empty => (empty there).elim⟩⟩

-- What masking makes of a rate outside of the band is outside as well.
def Beyond (n : Nat) (width : Width) (mask : BitVec 32) (mcsMask : Vector (BitVec 8) 10) (idx : Nat) : Prop :=
  (∃ j, n ≤ j ∧ j ≤ idx ∧ bit mask j = true) ∨
    (∀ j, j ≤ idx → bit mask j = false) ∧ (noHt width = true ∨ ¬∃ k, Ht mcsMask k)

theorem Matched.busted_iff (matched : Matched n width mask mcsMask r e) (one : 0 < n) (valid : 0 ≤ r.idx) :
    Busted n e ↔ Busted n r ∧ Beyond n width mask mcsMask r.idx.toNat := by
  have other {x : TxRate} (mcs : x.flags.mcs = true) : ¬Busted n x := fun busted => by
    cases mcs.symm.trans (legacy_kind.mp busted.1).1
  cases matched with
  | ht _ mcs | htKept mcs => exact iff_of_false (other mcs) fun busted => other mcs busted.1
  | htLegacy j mcs _ found =>
    have inside : j < n := (search_inside found).2.elim (fun below => by omega) id
    exact iff_of_false (fun busted => by have := Int.ofNat_le.mp busted.2; omega) fun busted => other mcs busted.1
  | vht _ vht =>
    have off : ¬Busted n r := fun busted => by cases vht.symm.trans (legacy_kind.mp busted.1).2
    exact iff_of_false off fun busted => off busted.1
  | legacy j kind found =>
    obtain ⟨holds,place⟩ := search_inside found
    refine ⟨fun busted => ?_,fun ⟨busted,beyond⟩ => ⟨kind,?_⟩⟩
    · have above : n ≤ j := Int.ofNat_le.mp busted.2
      exact ⟨⟨kind,by omega⟩,.inl ⟨j,above,by omega,holds⟩⟩
    · have above := busted.2
      rcases beyond with ⟨k,out,below,there⟩ | ⟨none,_⟩
      · exact Int.ofNat_le.mpr (Nat.le_trans out (search_above found there below))
      · cases holds.symm.trans (none j (by omega))
  | legacyHt j kind none falls found =>
    obtain ⟨there,_⟩ := search_inside found
    refine iff_of_false (other rfl) fun ⟨_,beyond⟩ => ?_
    rcases beyond with ⟨k,_,below,there⟩ | ⟨_,narrow | empty⟩
    · cases there.symm.trans (search_none.mp none k (.inl below))
    · cases falls.symm.trans narrow
    · exact empty ⟨j,by omega,there⟩
  | legacyKept kind none noHt =>
    exact ⟨fun busted => ⟨busted,.inr ⟨fun j below => search_none.mp none j (.inl below),noHt⟩⟩,fun busted => busted.1⟩

end mask

-- What becomes of an entry in rate_fixup_ratelist, behind an invalid one or not.
structure Fixed (n : Nat) (inval : Bool) (r e : TxRate) : Prop where
  kind : e.flags.mcs = r.flags.mcs ∧ e.flags.vhtMcs = r.flags.vhtMcs
  valid : 0 ≤ e.idx ↔ inval = false ∧ 0 ≤ r.idx ∧ ¬Busted n r
  same : 0 ≤ e.idx → e.idx = r.idx

section fixup

theorem fixupEntry_fixed (bitrates : List Bitrate) (f : Fixup) (i : Nat) :
    ∃ e, (fixupEntry bitrates f i).rates = update f.rates i e ∧ Fixed bitrates.length f.inval (f.rates i) e ∧
      (fixupEntry bitrates f i).inval = (f.inval || decide ((f.rates i).idx < 0)) := by
  have off : ¬(0 : Int) ≤ -1 := by decide
  unfold fixupEntry
  dsimp only
  split
  · next inval =>
    exact ⟨_,rfl,⟨⟨rfl,rfl⟩,by simp [inval],fun valid => (off valid).elim⟩,by simp [inval]⟩
  next going =>
  split
  · next invalid =>
    exact ⟨f.rates i,(Function.update_eq_self ..).symm,⟨⟨rfl,rfl⟩,by omega,fun _ => rfl⟩,by simp [invalid]⟩
  next valid =>
  have stays : f.inval = (f.inval || decide ((f.rates i).idx < 0)) := by simp [valid]
  have kept (out : ¬Busted bitrates.length (f.rates i)) : Fixed bitrates.length f.inval (f.rates i) (f.rates i) :=
    ⟨⟨rfl,rfl⟩,⟨fun alive => ⟨Bool.eq_false_iff.mpr going,alive,out⟩,fun all => all.2.1⟩,fun _ => rfl⟩
  split
  · next mcs =>
    have out : ¬Busted bitrates.length (f.rates i) := fun busted => by cases mcs.symm.trans (legacy_kind.mp busted.1).1
    split
    · exact ⟨_,rfl,⟨⟨rfl,rfl⟩,(kept out).valid,fun _ => rfl⟩,stays⟩
    · exact ⟨_,(Function.update_eq_self ..).symm,kept out,stays⟩
  next mcs =>
  split
  · next vht =>
    have out : ¬Busted bitrates.length (f.rates i) := fun busted => by cases vht.symm.trans (legacy_kind.mp busted.1).2
    exact ⟨_,(Function.update_eq_self ..).symm,kept out,stays⟩
  next vht =>
  split
  · next out =>
    have busted : Busted bitrates.length (f.rates i) :=
      ⟨legacy_kind.mpr ⟨Bool.eq_false_iff.mpr mcs,Bool.eq_false_iff.mpr vht⟩,by have := List.getElem?_eq_none_iff.mp out; omega⟩
    exact ⟨_,rfl,⟨⟨rfl,rfl⟩,⟨fun valid => (off valid).elim,fun all => (all.2.2 busted).elim⟩,fun valid => (off valid).elim⟩,stays⟩
  · next rate found =>
    have inside := (List.getElem?_eq_some_iff.mp found).1
    exact ⟨_,rfl,⟨⟨rfl,rfl⟩,(kept fun busted => by have := busted.2; omega).valid,fun _ => rfl⟩,stays⟩

theorem fixup_run (bitrates : List Bitrate) (info : Info) (rates : Nat → TxRate) (n : Nat) :
    let f := (List.range n).foldl (fixupEntry bitrates) ⟨info,false,rates⟩
    (f.inval = false ↔ ∀ k, k < n → 0 ≤ (rates k).idx) ∧ (∀ i, n ≤ i → f.rates i = rates i) ∧
      ∀ i, i < n → ∃ inval, (inval = false ↔ ∀ k, k < i → 0 ≤ (rates k).idx) ∧ Fixed bitrates.length inval (rates i) (f.rates i) := by
  induction n with
  | zero => exact ⟨by simp,fun _ _ => rfl,fun i none => by omega⟩
  | succ n ih =>
    obtain ⟨before,behind,fixed⟩ := ih
    rw [List.range_succ,List.foldl_append,List.foldl_cons,List.foldl_nil]
    obtain ⟨e,rates',here,inval⟩ := fixupEntry_fixed bitrates ((List.range n).foldl (fixupEntry bitrates) ⟨info,false,rates⟩) n
    rw [behind n (Nat.le_refl n)] at here inval
    dsimp only
    rw [rates',inval]
    refine ⟨?_,fun i above => ?_,fun i inside => ?_⟩
    · rw [Bool.or_eq_false_iff,before,decide_eq_false_iff_not,Int.not_lt]
      simp only [Nat.lt_succ_iff_lt_or_eq,or_imp,forall_and,forall_eq]
    · rw [update_of_ne (by omega)]
      exact behind i (by omega)
    · rcases Nat.lt_succ_iff_lt_or_eq.mp inside with inside | rfl
      · rw [update_of_ne (by omega)]
        exact fixed i inside
      · rw [update_self]
        exact ⟨_,before,here⟩

-- A base rate that is looked at is in the band, as one of the rates up to it is basic.
def BaseInside (n : Nat) (basic : BitVec 32) (base : Nat) : Prop := ∀ i, i < n → basic.getLsbD i = true → base < n

theorem fasterBasic_inside (inside : BaseInside bitrates.length basic base) (small : i < bitrates.length)
    (rate : Bitrate) : ∃ next, fasterBasic bitrates basic rate base i = some next ∧ BaseInside bitrates.length basic next := by
  unfold fasterBasic
  cases on : basic.getLsbD i with
  | false => exact ⟨base,rfl,inside⟩
  | true =>
    rw [List.getElem?_eq_getElem small,List.getElem?_eq_getElem (inside i small on)]
    simp only [Bool.not_true,Bool.false_eq_true,if_false,Option.bind_some,Option.map_some]
    split
    · exact ⟨base,rfl,inside⟩
    · refine ⟨_,rfl,fun k below basic => ?_⟩
      split
      · exact small
      · exact inside k below basic

theorem rtsCtsRate_none (basic : BitVec 32) (few : bitrates.length ≤ 32) (idx : Int) :
    rtsCtsRate bitrates basic idx = none ↔ idx < 0 ∨ (bitrates.length : Int) ≤ idx := by
  unfold rtsCtsRate
  split
  · next negative => simp [negative]
  next valid =>
  cases found : bitrates[idx.toNat]? with
  | none =>
    have out := List.getElem?_eq_none_iff.mp found
    simp only [Option.bind_none,true_iff]
    omega
  | some rate =>
    have inside := (List.getElem?_eq_some_iff.mp found).1
    have start : BaseInside bitrates.length basic ((up basic.getLsbD 0 32).getD 0) := by
      intro i small on
      cases first : up basic.getLsbD 0 32 with
      | none => cases on.symm.trans (up_none.mp first i (Nat.zero_le i) (by omega))
      | some => exact Nat.lt_of_le_of_lt ((up_some first).2.2.2 i on (Nat.zero_le i)) small
    obtain ⟨base,walked,_⟩ := Loops.foldlM_returns (fun _ => BaseInside bitrates.length basic) (List.range bitrates.length) start
      fun i below base inside => by
        rw [List.getElem_range]
        exact fasterBasic_inside inside (by simpa using below) rate
    rw [Option.bind_some,walked]
    simp only [reduceCtorEq,false_iff]
    omega

end fixup

structure Call where
  sdata : Sdata
  sta : Sta
  data : Bool
  info : Info
  control : Option (Nat → TxRate)
  dest : Nat → TxRate
  maxRates : Int

namespace Call
variable (c : Call)

def out : Chain := getTxRates (some c.sdata) (some c.sta) c.data c.info c.control c.dest c.maxRates

def size : Nat := (c.sdata.bands c.info.band).bitrates.length

def offered (i : Nat) : TxRate := TxRates.offered (some c.sta) c.info i (c.control.getD c.dest i) (c.dest i)

-- The rates that are merged, and what was in the array behind them.
def selected (i : Nat) : TxRate :=
  if i < (min c.maxRates 4).toNat ∧ ∀ k, k < i → unusable (c.offered k) = false then c.offered i else c.dest i

def First : Prop := 0 ≤ (c.selected 0).idx

-- The mask is enforced.
def masks : Bool := c.data && !c.sdata.defaultMask c.info.band

-- Masked or not, the entry is none of the band.
def Stuck (i : Nat) : Prop :=
  Busted c.size (c.selected i) ∧ (c.masks = true → (i : Int) < c.maxRates → c.First →
    Beyond c.size c.sdata.width (c.sdata.staMask (some c.sta) c.info.band) (c.sdata.mcsMask (some c.sta) c.info.band)
      (c.selected i).idx.toNat)

-- All entries from the second one to this one are valid.
def Run (i : Nat) : Prop := ∀ k, 0 < k → k ≤ i → 0 ≤ (c.selected k).idx

def masked : Nat → TxRate :=
  let filled := rateControlFillStaTable (some c.sta) c.info c.control c.dest c.maxRates
  if c.data then rateControlApplyMask c.sdata (some c.sta) c.info.band filled c.maxRates else filled

-- The entries that rate_fixup_ratelist gets.
def chain : Nat → TxRate :=
  if 0 ≤ (c.masked 0).idx ∨ c.control.isSome then c.masked
  else update c.masked 0 (rateControlSendLow c.sdata (some c.sta) c.info (c.masked 0))

variable {c} {i : Nat}

theorem filled_selected (c : Call) : rateControlFillStaTable (some c.sta) c.info c.control c.dest c.maxRates = c.selected := by
  funext i
  let fill (i : Nat) (r : TxRate) := TxRates.offered (some c.sta) c.info i ((c.control.map fun rates => rates i).getD r) r
  have same : ∀ rates k, c.control.getD rates k = (c.control.map fun rates => rates k).getD (rates k) := fun rates k => by
    cases c.control <;> rfl
  have entries := forBreak_entries fill (fun k r => unusable (fill k r)) (fun i rates =>
    let rate := TxRates.offered (some c.sta) c.info i (c.control.getD rates i) (rates i)
    (update rates i rate,unusable rate)) (fun k rates => by simp only [same,fill]) (min c.maxRates 4).toNat 0 c.dest i
  refine entries.trans ?_
  unfold selected offered
  simp only [same,Nat.zero_le,Nat.zero_add,true_and,true_implies,fill]

theorem masked_entry (c : Call) (i : Nat) :
    c.masked i = c.selected i ∧ ¬(c.masks = true ∧ (i : Int) < c.maxRates ∧ ∀ k, k ≤ i → 0 ≤ (c.selected k).idx) ∨
      (c.masks = true ∧ (i : Int) < c.maxRates ∧ ∀ k, k ≤ i → 0 ≤ (c.selected k).idx) ∧
        c.masked i = c.sdata.matched (some c.sta) c.info.band (c.selected i) := by
  unfold masked masks
  rw [filled_selected]
  cases c.data with
  | false => exact .inl ⟨rfl,fun on => by cases on.1⟩
  | true =>
    simp only [if_true,Bool.true_and,rateControlApplyMask]
    cases skip : c.sdata.defaultMask c.info.band with
    | true => exact .inl ⟨rfl,fun on => by cases on.1⟩
    | false =>
      let mask (r : TxRate) := if r.idx < 0 then r else c.sdata.matched (some c.sta) c.info.band r
      have entries := forBreak_entries (fun _ => mask) (fun _ r => decide (r.idx < 0)) (fun i rates =>
        if (rates i).idx < 0 then (rates,true) else (update rates i (c.sdata.matched (some c.sta) c.info.band (rates i)),false))
        (fun k rates => by
          dsimp only [mask]
          split
          · next invalid => simp [invalid]
          · next valid => simp [valid]) c.maxRates.toNat 0 c.selected i
      rw [if_neg (by decide),entries]
      simp only [Nat.zero_le,Nat.zero_add,true_and,true_implies,decide_eq_false_iff_not,Int.not_lt,Bool.not_false]
      by_cases valid : 0 ≤ (c.selected i).idx
      · by_cases on : i < c.maxRates.toNat ∧ ∀ k, k < i → 0 ≤ (c.selected k).idx
        · rw [if_pos on]
          exact .inr ⟨⟨by omega,fun k small => (Nat.lt_or_eq_of_le small).elim (on.2 k) fun same => same ▸ valid⟩,if_neg (by omega)⟩
        · rw [if_neg on]
          exact .inl ⟨rfl,fun all => on ⟨by omega,fun k small => all.2 k (Nat.le_of_lt small)⟩⟩
      · refine .inl ⟨?_,fun all => valid (all.2 i (Nat.le_refl i))⟩
        split
        · exact if_pos (by omega)
        · rfl

theorem masked_valid : 0 ≤ (c.masked i).idx ↔ 0 ≤ (c.selected i).idx := by
  rcases masked_entry c i with ⟨same,_⟩ | ⟨⟨_,_,valid⟩,same⟩
  · rw [same]
  · rw [same]
    exact iff_of_true ((rateIdxMatchMask_matched _).valid (valid i (Nat.le_refl i))) (valid i (Nat.le_refl i))

theorem low_inside (s : Sdata) (sta : Option Sta) (info : Info) (r : TxRate) :
    0 ≤ (rateControlSendLow s sta info r).idx ∧ (rateControlSendLow s sta info r).idx < (s.bands info.band).bitrates.length := by
  have one := (s.bands info.band).one
  unfold rateControlSendLow
  cases found : (s.bands info.band).bitrates.zipIdx.find? fun b => takes s sta info b.1 b.2 with
  | none => exact ⟨Int.le_refl 0,Int.ofNat_lt.mpr one⟩
  | some b =>
    have inside := (List.mem_zipIdx (List.mem_of_find?_eq_some found)).2.1
    exact ⟨Int.natCast_nonneg b.2,Int.ofNat_lt.mpr (by omega)⟩

theorem chain_first : 0 ≤ (c.chain 0).idx ↔ c.control = none ∨ c.First := by
  unfold chain
  cases c.control with
  | some => simp [masked_valid,First]
  | none =>
    by_cases valid : 0 ≤ (c.masked 0).idx
    · simp [valid]
    · simp [valid,(low_inside c.sdata (some c.sta) c.info (c.masked 0)).1]

theorem chain_masked (place : 0 < i ∨ c.First) : c.chain i = c.masked i := by
  unfold chain
  split
  · rfl
  · next other =>
    rcases place with _ | first
    · exact update_of_ne (by omega) ..
    · exact (other (.inl (masked_valid.mpr first))).elim

theorem chain_busted (first : 0 ≤ (c.chain 0).idx) (run : c.Run i) : Busted c.size (c.chain i) ↔ c.Stuck i := by
  by_cases place : 0 < i ∨ c.First
  · rw [chain_masked place]
    rcases masked_entry c i with ⟨same,off⟩ | ⟨⟨masks,inside,valid⟩,same⟩
    · rw [same]
      refine (and_iff_left fun masks inside first => (off ⟨masks,inside,fun k small => ?_⟩).elim).symm
      rcases Nat.eq_zero_or_pos k with rfl | positive
      · exact first
      · exact run k positive small
    · rw [same]
      have first : c.First := valid 0 (Nat.zero_le i)
      have there : Busted c.size (c.sdata.matched (some c.sta) c.info.band (c.selected i)) ↔ _ :=
        (rateIdxMatchMask_matched (c.selected i)).busted_iff (c.sdata.bands c.info.band).one (valid i (Nat.le_refl i))
      exact there.trans (and_congr_right fun _ => ⟨fun beyond _ _ _ => beyond,fun beyond => beyond masks inside first⟩)
  · obtain ⟨_,none⟩ := not_or.mp place
    obtain rfl : i = 0 := by omega
    have low : c.chain 0 = rateControlSendLow c.sdata (some c.sta) c.info (c.masked 0) := by
      have open' := (chain_first.mp first).resolve_right none
      unfold chain
      rw [if_neg (by simp [masked_valid,open',show ¬0 ≤ (c.selected 0).idx from none]),update_self]
    have inside := (low_inside c.sdata (some c.sta) c.info (c.masked 0)).2
    rw [low]
    exact iff_of_false (fun busted => by have := busted.2; unfold size at this; omega) fun stuck => none (by have := stuck.1.2; unfold First; omega)

theorem out_fixup (c : Call) :
    ∃ info control, info.band = c.info.band ∧ c.out = rateFixupRatelist c.sdata info control c.chain c.maxRates := by
  unfold out getTxRates chain masked
  dsimp only
  generalize (if c.data = true then _ else _ : Nat → TxRate) = masked
  by_cases valid : 0 ≤ (masked 0).idx
  · simp only [valid,if_true,true_or]
    exact ⟨_,_,rfl,rfl⟩
  · cases c.control with
    | none =>
      simp only [valid,if_false,Option.isSome_none,Bool.false_eq_true,or_self]
      exact ⟨{c.info with skipTable := true},_,rfl,rfl⟩
    | some =>
      simp only [valid,if_false,Option.isSome_some,or_true,if_true]
      exact ⟨{c.info with skipTable := true},_,rfl,rfl⟩

theorem out_entry (inside : (i : Int) < c.maxRates) :
    (0 ≤ (c.out.rates i).idx ↔ (∀ k, k ≤ i → 0 ≤ (c.chain k).idx) ∧ ¬Busted c.size (c.chain i)) ∧
      (0 ≤ (c.out.rates i).idx → (c.out.rates i).idx = (c.chain i).idx) ∧
      (c.out.rates i).flags.mcs = (c.chain i).flags.mcs ∧ (c.out.rates i).flags.vhtMcs = (c.chain i).flags.vhtMcs := by
  obtain ⟨info,_,band,out⟩ := out_fixup c
  rw [out]
  obtain ⟨_,before,fixed⟩ := (fixup_run (c.sdata.bands info.band).bitrates _ c.chain c.maxRates.toNat).2.2 i (by omega)
  refine ⟨?_,fixed.same,fixed.kind⟩
  refine fixed.valid.trans ?_
  rw [before,band,← and_assoc]
  refine and_congr_left fun _ => ⟨fun all k small => ?_,fun all => ⟨fun k small => all k (Nat.le_of_lt small),all i (Nat.le_refl i)⟩⟩
  exact (Nat.lt_or_eq_of_le small).elim (all.1 k) fun same => same ▸ all.2

theorem out_behind (outside : c.maxRates ≤ i) : c.out.rates i = c.chain i := by
  obtain ⟨info,_,_,out⟩ := out_fixup c
  rw [out]
  exact (fixup_run (c.sdata.bands info.band).bitrates _ c.chain c.maxRates.toNat).2.1 i (by omega)

theorem out_misread : c.out.misread = true ↔ (c.chain 0).legacy = true ∧ ((c.chain 0).idx < 0 ∨ (c.size : Int) ≤ (c.chain 0).idx) := by
  obtain ⟨info,_,band,out⟩ := out_fixup c
  rw [out]
  unfold rateFixupRatelist
  cases legacy : (c.chain 0).legacy with
  | false => simp
  | true => simpa [size,band] using rtsCtsRate_none c.sdata.basicRates (c.sdata.bands info.band).few (c.chain 0).idx

end Call

-- bitrates is read inside, the first rate is valid, and none is behind an invalid one.
structure WellFormed (c : Call) : Prop where
  inside : c.out.misread = false
  first : 0 ≤ (c.out.rates 0).idx
  ends : ∀ i j : Nat, i < j → (j : Int) < c.maxRates → 0 ≤ (c.out.rates j).idx → 0 ≤ (c.out.rates i).idx

theorem tx_rates_well_formed_iff (c : Call) :
    WellFormed c ↔ (c.control = none ∨ c.First) ∧ ¬c.Stuck 0 ∧
      ∀ i j : Nat, i < j → (j : Int) < c.maxRates → c.Run j → c.Stuck i → c.Stuck j := by
  have runs {i : Nat} (first : 0 ≤ (c.chain 0).idx) : c.Run i ↔ ∀ k, k ≤ i → 0 ≤ (c.chain k).idx := by
    refine ⟨fun run k small => ?_,fun all k above small => ?_⟩
    · rcases Nat.eq_zero_or_pos k with rfl | above
      · exact first
      · rw [Call.chain_masked (.inl above)]
        exact Call.masked_valid.mpr (run k above small)
    · have valid := all k small
      rw [Call.chain_masked (.inl above)] at valid
      exact Call.masked_valid.mp valid
  have start : c.Run 0 := fun k above small => by omega
  constructor
  · rintro ⟨inside,valid,ends⟩
    have first : 0 ≤ (c.chain 0).idx := by
      by_cases some : 0 < c.maxRates
      · exact (Call.out_entry (c := c) (i := 0) some).1.mp valid |>.1 0 (Nat.le_refl 0)
      · rwa [Call.out_behind (by omega)] at valid
    refine ⟨Call.chain_first.mp first,fun stuck => ?_,fun i j less small run stuck => ?_⟩
    · have busted := (Call.chain_busted first start).mpr stuck
      cases inside.symm.trans (Call.out_misread.mpr ⟨busted.1,.inr busted.2⟩)
    · by_contra fine
      have there := (Call.out_entry small).1.mpr ⟨(runs first).mp run,fun busted => fine ((Call.chain_busted first run).mp busted)⟩
      have before := (Call.out_entry (c := c) (i := i) (by omega)).1.mp (ends i j less small there)
      exact before.2 ((Call.chain_busted first ((runs first).mpr before.1)).mpr stuck)
  · rintro ⟨usable,fine,ends⟩
    have first := Call.chain_first.mpr usable
    have inBand : ¬Busted c.size (c.chain 0) := fun busted => fine ((Call.chain_busted first start).mp busted)
    refine ⟨?_,?_,fun i j less small valid => ?_⟩
    · refine Bool.eq_false_iff.mpr fun misread => ?_
      obtain ⟨legacy,negative | out⟩ := Call.out_misread.mp misread
      · omega
      · exact inBand ⟨legacy,out⟩
    · by_cases some : 0 < c.maxRates
      · exact (Call.out_entry (c := c) (i := 0) some).1.mpr ⟨(runs first).mp start,inBand⟩
      · rwa [Call.out_behind (by omega)]
    · obtain ⟨all,known⟩ := (Call.out_entry small).1.mp valid
      have run := (runs first).mpr all
      have before : ∀ k, k ≤ i → 0 ≤ (c.chain k).idx := fun k below => all k (by omega)
      refine (Call.out_entry (c := c) (i := i) (by omega)).1.mpr ⟨before,fun busted => known ?_⟩
      have stuck := (Call.chain_busted first ((runs first).mpr before)).mp busted
      exact (Call.chain_busted first run).mpr (ends i j less small run stuck)

-- A station with one of the two rates of the band, and a frame without rates.
namespace Sample

def flags : Flags := ⟨false,false,false,false,false,false,0⟩

def band : Sband := ⟨true,[⟨0,10⟩,⟨0,20⟩],by decide,by decide⟩

def vif (mask : BitVec 32) : Sdata := ⟨fun _ => mask,fun _ => false,fun _ => Vector.replicate 10 0,fun _ => band,.noHt20,0,0,1,3⟩

def sta : Sta := ⟨fun _ => 1,Vector.replicate 10 0,none⟩

def info : Info := ⟨0,false,false,false,false,false,false,0⟩

def none (_ : Nat) : TxRate := ⟨-1,0,flags⟩

def second (i : Nat) : TxRate := if i = 0 then ⟨1,1,flags⟩ else none i

end Sample

theorem driver_array_lost : ¬WellFormed ⟨Sample.vif 3,Sample.sta,true,Sample.info,some Sample.none,Sample.none,4⟩ :=
  fun formed => absurd formed.first (by decide)

def Call.Enforced (c : Call) (i : Nat) : Prop :=
  TxRates.Enforced c.sdata.width (Legacy c.size (c.sdata.staMask (some c.sta) c.info.band)) (Ht (c.sdata.mcsMask (some c.sta) c.info.band))
    (c.selected i) (c.out.rates i)

-- Masks that allow all rates of the band leave the entries as they were selected.
theorem mask_enforced (c : Call) (i : Nat) (inside : (i : Int) < c.maxRates) (run : ∀ k, k ≤ i → 0 ≤ (c.selected k).idx)
    (valid : 0 ≤ (c.out.rates i).idx) :
    (c.masks = true → ((c.selected i).flags.mcs = true → (c.selected i).idx < 80) → c.Enforced i) ∧
      (c.masks = false → (c.out.rates i).idx = (c.selected i).idx ∧ (c.out.rates i).flags.mcs = (c.selected i).flags.mcs ∧
        (c.out.rates i).legacy = (c.selected i).legacy) := by
  obtain ⟨all,same,mcs,vht⟩ := Call.out_entry inside
  have legacy : (c.out.rates i).legacy = (c.chain i).legacy := by rw [TxRate.legacy,TxRate.legacy,mcs,vht]
  have known := (all.mp valid).2
  rw [Call.chain_masked (.inr (run 0 (Nat.zero_le i)))] at same mcs legacy known
  refine ⟨fun masks small => ?_,fun open' => ?_⟩
  · obtain ⟨_,off⟩ | ⟨_,matched⟩ := Call.masked_entry c i
    · exact (off ⟨masks,inside,run⟩).elim
    · rw [matched] at same mcs legacy known
      have enforced := (rateIdxMatchMask_matched (c.selected i)).enforced (fun mcs => by have := small mcs; omega) known
      constructor
      · rw [same valid,mcs,legacy]
        exact enforced.mcs
      · rw [same valid,mcs,legacy]
        exact enforced.band
  · obtain ⟨kept,_⟩ | ⟨on,_⟩ := Call.masked_entry c i
    · rw [kept] at same mcs legacy
      exact ⟨same valid,mcs,legacy⟩
    · cases open'.symm.trans on.1

theorem mask_enforced_sample :
    Call.Enforced ⟨Sample.vif 1,Sample.sta,true,Sample.info,none,Sample.second,1⟩ 0 :=
  (mask_enforced ⟨Sample.vif 1,Sample.sta,true,Sample.info,none,Sample.second,1⟩ 0 (by decide)
    (fun k small => by obtain rfl := Nat.le_zero.mp small; decide) (by decide)).1 (by decide) (by decide)

-- All rates of the band are allowed by the mask, and the selected one is none of the station.
theorem default_mask_unenforced :
    ¬∀ (c : Call) (i : Nat), c.data = true → (i : Int) < c.maxRates → 0 ≤ (c.out.rates i).idx → c.Enforced i := by
  intro claimed
  have enforced := claimed ⟨Sample.vif 3,Sample.sta,true,Sample.info,none,Sample.second,1⟩ 0 rfl (by decide) (by decide)
  have best := ((enforced.band rfl).chosen ⟨0,by decide,by decide⟩).2
  exact absurd best.holds.2 (by decide)

end Mac80211.TxRates

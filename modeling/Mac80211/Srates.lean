import Mac80211.IbssPresp
import Mac80211.Loops
import Mac80211.Tlv

namespace Mac80211.Srates
open Chan (Chandef Width)
open Ibss (Rate SupportedBand Hw chandefGetShift eidSuppRates eidExtSuppRates)
open List (length_take_of_le append_assoc length_append getElem?_eq_getElem drop_zero length_cons length_drop)

-- bss_conf.chandef, bss_conf.basic_rates and the channel context. A narrow channel is compatible with
-- itself only.
structure Sdata where
  chandef : Chandef
  chanctxConf : Option Chandef
  basicRates : Nat
  tuned : (chanctxConf.map chandefGetShift).getD 0 = chandefGetShift chandef

def Sdata.getShift (s : Sdata) : Nat := (s.chanctxConf.map chandefGetShift).getD 0

-- No band has more than 32 rates: they are numbers of bits.
abbrev Bitrates := {rates : List Rate // rates.length ≤ 32}

structure Skb where
  buf : List UInt8
  tail : Nat

def Skb.tailroom (skb : Skb) : Nat := skb.buf.length - skb.tail

inductive Fault where
  | nomem | outside

structure Built where
  skb : Skb
  pos : Nat

def divRoundUp (n d : Nat) : Nat := (n + d - 1) / d

def usable (flags : UInt32) (r : Rate) : Bool := flags &&& r.flags == flags

def rounded (shift : Nat) (r : Rate) : Nat := divRoundUp r.bitrate.toNat (5 * 2 ^ shift)

structure Call where
  flags : UInt32
  shift : Nat
  needBasic : Bool
  basicRates : Nat
  bitrates : Bitrates

def Call.rateByte (c : Call) (i : Nat) (r : Rate) : UInt8 :=
  (if c.needBasic && c.basicRates.testBit i then 0x80 else 0) ||| UInt8.ofNat (rounded c.shift r)

def Call.putRate (c : Call) (i : Nat) (s : List UInt8 × Nat) : Option (List UInt8 × Nat) :=
  c.bitrates.val[i]?.bind fun r =>
    if !usable c.flags r then some s else (Tlv.store s.1 s.2 [c.rateByte i r]).map fun buf => (buf,s.2 + 1)

def Call.putRates (c : Call) (skb : Skb) (id : UInt8) (len lo hi : Nat) : Except Fault Built :=
  match (Tlv.store skb.buf skb.tail [id,UInt8.ofNat len]).bind fun buf => Loops.forSome lo hi c.putRate (buf,skb.tail + 2) with
  | none => .error .outside
  | some (buf,pos) => .ok ⟨⟨buf,skb.tail + (len + 2)⟩,pos⟩

def Call.count (c : Call) : Nat := c.bitrates.val.countP (usable c.flags)

def Call.addSratesIe (c : Call) (skb : Skb) : Except Fault Built :=
  let rates := min c.count 8
  if skb.tailroom < rates + 2 then .error .nomem else c.putRates skb eidSuppRates rates 0 rates

def Call.addExtSratesIe (c : Call) (skb : Skb) : Except Fault Built :=
  let exrates := if c.count > 8 then c.count - 8 else 0
  if skb.tailroom < exrates + 2 then .error .nomem
  else if exrates ≠ 0 then c.putRates skb eidExtSuppRates exrates 8 c.bitrates.val.length
  else .ok ⟨skb,skb.tail⟩

section functions
variable (rateFlags : Width → UInt32)

def call (s : Sdata) (needBasic : Bool) (bitrates : Bitrates) : Call :=
  ⟨rateFlags s.chandef.width,s.getShift,needBasic,s.basicRates,bitrates⟩

def addSratesIe (s : Sdata) (skb : Skb) (needBasic : Bool) (bitrates : Bitrates) : Except Fault Built :=
  (call rateFlags s needBasic bitrates).addSratesIe skb

def addExtSratesIe (s : Sdata) (skb : Skb) (needBasic : Bool) (bitrates : Bitrates) : Except Fault Built :=
  (call rateFlags s needBasic bitrates).addExtSratesIe skb

def matchRate (flags : UInt32) (shift : Nat) (b : UInt8) (r : Rate) : Bool := usable flags r && rounded shift r == (b &&& 0x7f).toNat

def parseBitrates (chandef : Chandef) (bitrates : Bitrates) (srates : List UInt8) : Nat × Nat :=
  srates.foldl (fun (rates,count) b =>
    match bitrates.val.findIdx? (matchRate (rateFlags chandef.width) (chandefGetShift chandef) b) with
    | some j => (rates ||| 2 ^ j,count + 1)
    | none => (rates,count)) (0,0)

end functions

section written
variable {c : Call} {buf : List UInt8}

def Call.chosen (c : Call) (i : Nat) : Option UInt8 :=
  c.bitrates.val[i]?.bind fun r => if usable c.flags r then some (c.rateByte i r) else none

theorem chosen_isSome (rate : c.bitrates.val[i]? = some r) : (c.chosen i).isSome = usable c.flags r := by
  unfold Call.chosen
  rw [rate,Option.bind_some]
  cases usable c.flags r <;> rfl

theorem putRate_none (inside : i < c.bitrates.val.length) (byte : c.chosen i = none) (s : List UInt8 × Nat) :
    c.putRate i s = some s := by
  have rate := getElem?_eq_getElem inside
  have skipped : usable c.flags c.bitrates.val[i] = false := by rw [← chosen_isSome rate,byte]; rfl
  unfold Call.putRate
  rw [rate,Option.bind_some,skipped]
  rfl

theorem putRate_some (byte : c.chosen i = some b) (s : List UInt8 × Nat) :
    c.putRate i s = (Tlv.store s.1 s.2 [b]).map fun buf => (buf,s.2 + 1) := by
  obtain ⟨r,rate,chosen⟩ := Option.bind_eq_some_iff.mp byte
  have taken : usable c.flags r = true := by rw [← chosen_isSome rate,byte]; rfl
  rw [if_pos taken] at chosen
  cases chosen
  unfold Call.putRate
  rw [rate,Option.bind_some,taken]
  rfl

theorem putRates_store (is : List Nat) (inside : ∀ i ∈ is, i < c.bitrates.val.length) (fits : pos ≤ buf.length) :
    is.foldlM (fun s i => c.putRate i s) (buf,pos) =
      (Tlv.store buf pos (is.filterMap c.chosen)).map fun buf => (buf,pos + (is.filterMap c.chosen).length) := by
  induction is generalizing buf pos with
  | nil =>
    rw [List.filterMap_nil,Tlv.store_nil fits]
    rfl
  | cons i rest ih =>
    have here := inside i (List.mem_cons_self ..)
    have later : ∀ i ∈ rest, i < c.bitrates.val.length := fun i member => inside i (List.mem_cons_of_mem _ member)
    rw [List.foldlM_cons]
    cases byte : c.chosen i with
    | none =>
      rw [putRate_none here byte,List.filterMap_cons_none byte,← ih later fits]
      rfl
    | some b =>
      rw [putRate_some byte,List.filterMap_cons_some byte,Tlv.store_cons buf pos b (rest.filterMap c.chosen)]
      cases first : Tlv.store buf pos [b] with
      | none => rfl
      | some stored =>
        have length := Tlv.store_length first
        have room : pos + 1 ≤ buf.length := (Option.ite_none_right_eq_some.mp first).1
        show (rest.foldlM (fun s i => c.putRate i s) (stored,pos + 1)) = _
        rw [ih later (by omega),Option.bind_some,length_cons,Nat.add_assoc,Nat.add_comm 1]

theorem chosen_length (lo count : Nat) (inside : lo + count ≤ c.bitrates.val.length) :
    ((List.range' lo count).filterMap c.chosen).length = ((c.bitrates.val.drop lo).take count).countP (usable c.flags) := by
  induction count generalizing lo with
  | zero => rfl
  | succ count ih =>
    have here : lo < c.bitrates.val.length := by omega
    have some_ := chosen_isSome (getElem?_eq_getElem here)
    rw [List.range'_succ,List.drop_eq_getElem_cons here,List.take_succ_cons,List.countP_cons,← ih (lo + 1) (by omega)]
    cases byte : c.chosen lo with
    | none =>
      rw [byte] at some_
      rw [List.filterMap_cons_none byte,← some_]
      rfl
    | some =>
      rw [byte] at some_
      rw [List.filterMap_cons_some byte,← some_]
      rfl

def Call.bytes (c : Call) (lo hi : Nat) : List UInt8 := (List.range' lo (hi - lo)).filterMap c.chosen

theorem putRates_ok (skb : Skb) (id : UInt8) (len lo hi : Nat) (within : hi ≤ c.bitrates.val.length) (b : Built) :
    c.putRates skb id len lo hi = .ok b ↔ ∃ buf, Tlv.storeAll skb.buf skb.tail [[id,UInt8.ofNat len],c.bytes lo hi] = some buf ∧
      b = ⟨⟨buf,skb.tail + (len + 2)⟩,skb.tail + 2 + (c.bytes lo hi).length⟩ := by
  have inside : ∀ i ∈ List.range' lo (hi - lo), i < c.bitrates.val.length := by
    intro i member
    obtain ⟨_,_⟩ := List.mem_range'_1.mp member
    omega
  unfold Call.putRates
  show _ ↔ ∃ buf, (Tlv.store skb.buf skb.tail [id,UInt8.ofNat len]).bind (fun buf =>
    (Tlv.store buf (skb.tail + 2) (c.bytes lo hi)).bind fun buf => some buf) = some buf ∧ _
  cases header : Tlv.store skb.buf skb.tail [id,UInt8.ofNat len] with
  | none => simp
  | some buf =>
    have room : skb.tail + 2 ≤ skb.buf.length := (Option.ite_none_right_eq_some.mp header).1
    have length := Tlv.store_length header
    have loop : Loops.forSome lo hi c.putRate (buf,skb.tail + 2) =
        (Tlv.store buf (skb.tail + 2) (c.bytes lo hi)).map fun buf => (buf,skb.tail + 2 + (c.bytes lo hi).length) :=
      putRates_store _ inside (by omega)
    simp only [Option.bind_some,loop]
    cases Tlv.store buf (skb.tail + 2) (c.bytes lo hi) with
    | none => simp
    | some => simp [eq_comm]

theorem element_written (id len : UInt8) (bytes : List UInt8) (room : pos + 2 + bytes.length ≤ buf.length) :
    Tlv.storeAll buf pos [[id,len],bytes] = some (buf.take pos ++ ([id,len] ++ (bytes ++ buf.drop (pos + 2 + bytes.length)))) := by
  have cut : buf = buf.take pos ++ ((buf.drop pos).take (2 + bytes.length) ++ buf.drop (pos + 2 + bytes.length)) := by
    rw [Nat.add_assoc,← List.drop_drop,List.take_append_drop,List.take_append_drop]
  have place : (buf.take pos).length = pos := length_take_of_le (by omega)
  have same : ((buf.drop pos).take (2 + bytes.length)).length = ([[id,len],bytes] : List (List UInt8)).flatten.length := by
    simp only [List.length_take,length_drop,List.flatten_cons,List.flatten_nil,length_append,length_cons,List.length_nil]
    omega
  have stored := Tlv.storeAll_replaces (buf.take pos) _ (buf.drop (pos + 2 + bytes.length)) [[id,len],bytes] place same
  rw [← cut] at stored
  rw [stored]
  simp

theorem written_len (id len : UInt8) (bytes back : List UInt8) (inside : pos ≤ buf.length) :
    (buf.take pos ++ ([id,len] ++ (bytes ++ back)))[pos + 1]? = some len := by
  have place : (buf.take pos).length = pos := length_take_of_le inside
  rw [List.getElem?_append_right (by omega),place,Nat.add_sub_cancel_left]
  rfl

def Call.Gapless (c : Call) : Prop := ∀ r ∈ c.bitrates.val.take (min c.count 8), usable c.flags r = true

theorem count_le : c.count ≤ c.bitrates.val.length := List.countP_le_length

theorem bytes_length (lo hi : Nat) (order : lo ≤ hi) (within : hi ≤ c.bitrates.val.length) :
    (c.bytes lo hi).length = ((c.bitrates.val.drop lo).take (hi - lo)).countP (usable c.flags) :=
  chosen_length lo (hi - lo) (by omega)

theorem gapless_iff : c.Gapless ↔ (c.bytes 0 (min c.count 8)).length = min c.count 8 := by
  have within : min c.count 8 ≤ c.bitrates.val.length := Nat.le_trans (Nat.min_le_left ..) count_le
  have length : (c.bitrates.val.take (min c.count 8)).length = min c.count 8 := length_take_of_le within
  rw [bytes_length 0 _ (Nat.zero_le _) within,drop_zero,Nat.sub_zero]
  refine List.countP_eq_length.symm.trans ?_
  rw [length]

theorem gapless_later (gapless : c.Gapless) (many : 8 < c.count) : (c.bytes 8 c.bitrates.val.length).length = c.count - 8 := by
  have within := count_le (c := c)
  have first : (c.bitrates.val.take 8).countP (usable c.flags) = 8 := by
    have length : (c.bitrates.val.take 8).length = 8 := length_take_of_le (by omega)
    have eight : min c.count 8 = 8 := by omega
    unfold Call.Gapless at gapless
    rw [eight] at gapless
    rw [List.countP_eq_length.mpr gapless,length]
  have both : c.count = (c.bitrates.val.take 8).countP (usable c.flags) + (c.bitrates.val.drop 8).countP (usable c.flags) := by
    rw [← List.countP_append,List.take_append_drop]
    rfl
  rw [bytes_length 8 _ (by omega) (Nat.le_refl _),List.take_of_length_le (by rw [length_drop])]
  omega

theorem bytes_split (mid : Nat) (inside : mid ≤ c.bitrates.val.length) :
    c.bytes 0 mid ++ c.bytes mid c.bitrates.val.length = c.bytes 0 c.bitrates.val.length := by
  unfold Call.bytes
  rw [← List.filterMap_append,Nat.sub_zero,Nat.sub_zero]
  have joined : List.range' 0 mid ++ List.range' mid (c.bitrates.val.length - mid) = List.range' 0 c.bitrates.val.length := by
    have := List.range'_append_1 (s := 0) (m := mid) (n := c.bitrates.val.length - mid)
    rw [Nat.zero_add,Nat.add_sub_cancel' inside] at this
    exact this
  rw [joined]

theorem gapless_few (gapless : c.Gapless) (few : c.count ≤ 8) : c.bytes 0 c.count = c.bytes 0 c.bitrates.val.length := by
  have none_left : c.bytes c.count c.bitrates.val.length = [] := by
    have whole := congrArg List.length (bytes_split (c := c) c.count count_le)
    have all := bytes_length (c := c) 0 _ (Nat.zero_le _) (Nat.le_refl _)
    rw [drop_zero,Nat.sub_zero,List.take_length] at all
    have first := gapless_iff.mp gapless
    rw [Nat.min_eq_left few] at first
    rw [length_append,all,first] at whole
    have : c.bitrates.val.countP (usable c.flags) = c.count := rfl
    exact List.length_eq_zero_iff.mp (by omega)
  rw [← bytes_split c.count count_le,none_left,List.append_nil]

end written

section parsed

theorem parseBitrates_testBit (srates : List UInt8) (j : Nat) :
    (parseBitrates rateFlags chandef bitrates srates).1.testBit j = true ↔
      ∃ b ∈ srates, bitrates.val.findIdx? (matchRate (rateFlags chandef.width) (chandefGetShift chandef) b) = some j := by
  have from_here : ∀ acc : Nat × Nat, (srates.foldl (fun (rates,count) b =>
      match bitrates.val.findIdx? (matchRate (rateFlags chandef.width) (chandefGetShift chandef) b) with
      | some j => (rates ||| 2 ^ j,count + 1)
      | none => (rates,count)) acc).1.testBit j = true ↔ acc.1.testBit j = true ∨
        ∃ b ∈ srates, bitrates.val.findIdx? (matchRate (rateFlags chandef.width) (chandefGetShift chandef) b) = some j := by
    induction srates with
    | nil => simp
    | cons b rest ih =>
      intro acc
      rw [List.foldl_cons,ih]
      cases found : bitrates.val.findIdx? (matchRate (rateFlags chandef.width) (chandefGetShift chandef) b) with
      | none => simp [found]
      | some k =>
        have bits : (acc.1 ||| 2 ^ k).testBit j = true ↔ acc.1.testBit j = true ∨ k = j := by
          rw [Nat.testBit_or,Nat.testBit_two_pow]
          simp
        rw [bits]
        simp [found,or_assoc]
  exact (from_here (0,0)).trans (by simp)

theorem rateByte_masked (c : Call) (i : Nat) (r : Rate) : (c.rateByte i r &&& 0x7f).toNat = rounded c.shift r % 128 := by
  have low : ∀ b : UInt8, (b &&& 0x7f).toNat = b.toNat % 128 := fun b => Nat.and_two_pow_sub_one_eq_mod b.toNat 7
  have basic : ∀ b : UInt8, (((0x80 : UInt8) ||| b) &&& 0x7f).toNat = (b &&& 0x7f).toNat := by
    intro b
    have top : (0x80 : UInt8).toNat &&& (0x7f : UInt8).toNat = 0 := by decide
    rw [UInt8.toNat_and,UInt8.toNat_or,Nat.and_or_distrib_right,top,Nat.zero_or,UInt8.toNat_and]
  have byte : (UInt8.ofNat (rounded c.shift r) &&& 0x7f).toNat = rounded c.shift r % 128 := by
    rw [low,UInt8.toNat_ofNat']
    exact Nat.mod_mod_of_dvd _ (by decide)
  unfold Call.rateByte
  split_ifs
  · rw [basic,byte]
  · rw [UInt8.zero_or,byte]

def Call.Told (c : Call) : Prop :=
  ∀ (i : Nat) r, c.bitrates.val[i]? = some r → usable c.flags r = true →
    rounded c.shift r < 128 ∧ ∀ (j : Nat) q, c.bitrates.val[j]? = some q → usable c.flags q = true →
      rounded c.shift q = rounded c.shift r → j = i

theorem mem_bytes {c : Call} : b ∈ c.bytes 0 c.bitrates.val.length ↔
    ∃ (i : Nat) (r : Rate), c.bitrates.val[i]? = some r ∧ usable c.flags r = true ∧ c.rateByte i r = b := by
  unfold Call.bytes
  rw [List.mem_filterMap]
  constructor
  · rintro ⟨i,_,chosen⟩
    obtain ⟨r,rate,chosen⟩ := Option.bind_eq_some_iff.mp chosen
    split_ifs at chosen with taken
    exact ⟨i,r,rate,taken,Option.some.inj chosen⟩
  · rintro ⟨i,r,rate,taken,same⟩
    refine ⟨i,?_,?_⟩
    · have inside := (List.getElem?_eq_some_iff.mp rate).1
      exact List.mem_range'_1.mpr ⟨Nat.zero_le _,by omega⟩
    · unfold Call.chosen
      rw [rate,Option.bind_some,if_pos taken,same]

theorem told_iff (c : Call) :
    (∀ j, (∃ b ∈ c.bytes 0 c.bitrates.val.length, c.bitrates.val.findIdx? (matchRate c.flags c.shift b) = some j) ↔
      ∃ r, c.bitrates.val[j]? = some r ∧ usable c.flags r = true) ↔ c.Told := by
  have matched : ∀ (b : UInt8) (r : Rate),
      matchRate c.flags c.shift b r = true ↔ usable c.flags r = true ∧ rounded c.shift r = (b &&& 0x7f).toNat := by
    intro b r
    unfold matchRate
    rw [Bool.and_eq_true,beq_iff_eq]
  constructor
  · intro exact_ i r rate taken
    obtain ⟨b,member,found⟩ := (exact_ i).mpr ⟨r,rate,taken⟩
    obtain ⟨k,s,_,_,rfl⟩ := mem_bytes.mp member
    have own : rounded c.shift r = (c.rateByte k s &&& 0x7f).toNat := by
      obtain ⟨inside,holds,_⟩ := List.findIdx?_eq_some_iff_getElem.mp found
      rw [getElem?_eq_getElem inside] at rate
      cases rate
      exact ((matched _ _).mp holds).2
    refine ⟨?_,?_⟩
    · rw [own,rateByte_masked]
      exact Nat.mod_lt _ (by decide)
    intro j q rate' taken' same
    obtain ⟨b',_,found'⟩ := (exact_ j).mpr ⟨q,rate',taken'⟩
    have own' : rounded c.shift q = (b' &&& 0x7f).toNat := by
      obtain ⟨inside,holds,_⟩ := List.findIdx?_eq_some_iff_getElem.mp found'
      rw [getElem?_eq_getElem inside] at rate'
      cases rate'
      exact ((matched _ _).mp holds).2
    have alike : matchRate c.flags c.shift b' = matchRate c.flags c.shift (c.rateByte k s) := by
      unfold matchRate
      rw [← own,← own',same]
    rw [alike,found] at found'
    exact (Option.some.inj found').symm
  intro told j
  constructor
  · rintro ⟨b,_,found⟩
    obtain ⟨inside,holds,_⟩ := List.findIdx?_eq_some_iff_getElem.mp found
    exact ⟨_,getElem?_eq_getElem inside,((matched _ _).mp holds).1⟩
  rintro ⟨r,rate,taken⟩
  obtain ⟨small,alone⟩ := told j r rate taken
  obtain ⟨inside,here⟩ := List.getElem?_eq_some_iff.mp rate
  have masked : (c.rateByte j r &&& 0x7f).toNat = rounded c.shift r := (rateByte_masked c j r).trans (Nat.mod_eq_of_lt small)
  refine ⟨c.rateByte j r,mem_bytes.mpr ⟨j,r,rate,taken,rfl⟩,List.findIdx?_eq_some_iff_getElem.mpr ⟨inside,?_,?_⟩⟩
  · exact (matched _ _).mpr ⟨here ▸ taken,here ▸ masked.symm⟩
  · intro i _ holds
    obtain ⟨taken',same⟩ := (matched _ _).mp holds
    have := alone i _ (getElem?_eq_getElem _) taken' (same.trans masked)
    omega

end parsed

section roundTrip
variable (rateFlags : Width → UInt32) (s : Sdata) (needBasic : Bool) (bitrates : Bitrates) (skb : Skb)

-- The length byte is the number of bytes written after it; an element that is not there has none.
def Counted (before : Nat) (b : Built) : Prop :=
  b.skb.tail = before ∨ ∃ len, b.skb.buf[before + 1]? = some len ∧ b.pos = before + 2 + len.toNat

def contents (skb : Skb) (before after : Nat) : Option (List UInt8) := Tlv.load skb.buf (before + 2) (after - (before + 2))

def RoundTrip : Prop :=
  ∃ first second rates more, addSratesIe rateFlags s skb needBasic bitrates = .ok first ∧
    addExtSratesIe rateFlags s first.skb needBasic bitrates = .ok second ∧
    Counted skb.tail first ∧ Counted first.skb.tail second ∧
    contents second.skb skb.tail first.skb.tail = some rates ∧ contents second.skb first.skb.tail second.skb.tail = some more ∧
    ∀ j, (parseBitrates rateFlags s.chandef bitrates (rates ++ more)).1.testBit j = true ↔
      ∃ r, bitrates.val[j]? = some r ∧ usable (rateFlags s.chandef.width) r = true

variable {rateFlags s needBasic bitrates skb}

def Call.firstBuf (c : Call) (skb : Skb) (back : List UInt8) : List UInt8 :=
  skb.buf.take skb.tail ++ ([eidSuppRates,UInt8.ofNat (min c.count 8)] ++ (c.bytes 0 (min c.count 8) ++ back))

theorem addSratesIe_ok {c : Call} (room : skb.tail + (min c.count 8 + 2) ≤ skb.buf.length) :
    c.addSratesIe skb = .ok ⟨⟨c.firstBuf skb (skb.buf.drop (skb.tail + 2 + (c.bytes 0 (min c.count 8)).length)),skb.tail + (min c.count 8 + 2)⟩,
      skb.tail + 2 + (c.bytes 0 (min c.count 8)).length⟩ := by
  have within : min c.count 8 ≤ c.bitrates.val.length := Nat.le_trans (Nat.min_le_left ..) count_le
  have few : (c.bytes 0 (min c.count 8)).length ≤ min c.count 8 := by
    rw [bytes_length 0 _ (Nat.zero_le _) within]
    refine Nat.le_trans List.countP_le_length ?_
    rw [drop_zero,Nat.sub_zero,length_take_of_le within]
  unfold Call.addSratesIe Skb.tailroom
  rw [if_neg (by omega)]
  exact (putRates_ok skb _ _ 0 _ within _).mpr ⟨_,element_written _ _ _ (by omega),rfl⟩

theorem roundTrip_gapless (room : skb.tail + (min (call rateFlags s needBasic bitrates).count 8 + 2) ≤ skb.buf.length)
    (trip : RoundTrip rateFlags s needBasic bitrates skb) : (call rateFlags s needBasic bitrates).Gapless := by
  obtain ⟨_,_,_,_,added,_,counted,_⟩ := trip
  unfold addSratesIe at added
  rw [addSratesIe_ok room] at added
  cases added
  refine gapless_iff.mpr ?_
  rcases counted with none_put | ⟨_,read,pos⟩
  · simp at none_put
  · have written := written_len eidSuppRates (UInt8.ofNat (min (call rateFlags s needBasic bitrates).count 8))
      ((call rateFlags s needBasic bitrates).bytes 0 (min (call rateFlags s needBasic bitrates).count 8))
      (skb.buf.drop (skb.tail + 2 + ((call rateFlags s needBasic bitrates).bytes 0 (min (call rateFlags s needBasic bitrates).count 8)).length))
      (show skb.tail ≤ skb.buf.length by omega)
    cases Option.some.inj (written.symm.trans read)
    rw [UInt8.toNat_ofNat'] at pos
    simp only at pos
    omega

section gapless
variable {c : Call} (gapless : c.Gapless) (inside : skb.tail ≤ skb.buf.length) (back : List UInt8)
include gapless inside

theorem firstBuf_front : (skb.buf.take skb.tail ++ ([eidSuppRates,UInt8.ofNat (min c.count 8)] ++ c.bytes 0 (min c.count 8))).length =
    skb.tail + (min c.count 8 + 2) := by
  simp only [length_append,length_take_of_le inside,gapless_iff.mp gapless,length_cons,List.length_nil]
  omega

theorem firstBuf_length : (c.firstBuf skb back).length = skb.tail + (min c.count 8 + 2) + back.length := by
  unfold Call.firstBuf
  rw [← firstBuf_front gapless inside,← append_assoc _ _ back,← append_assoc,length_append]

theorem firstBuf_take : (c.firstBuf skb back).take (skb.tail + (min c.count 8 + 2)) ++ more = c.firstBuf skb more := by
  unfold Call.firstBuf
  rw [← append_assoc _ _ back,← append_assoc _ _ back,List.take_left' (firstBuf_front gapless inside)]
  simp only [append_assoc]

theorem firstBuf_counted (tail : Nat) : Counted skb.tail ⟨⟨c.firstBuf skb back,tail⟩,skb.tail + 2 + (c.bytes 0 (min c.count 8)).length⟩ := by
  refine .inr ⟨_,written_len _ _ _ _ inside,?_⟩
  rw [gapless_iff.mp gapless,UInt8.toNat_ofNat']
  dsimp only
  omega

theorem firstBuf_contents (tail : Nat) :
    contents ⟨c.firstBuf skb back,tail⟩ skb.tail (skb.tail + (min c.count 8 + 2)) = some (c.bytes 0 (min c.count 8)) := by
  have header : (skb.buf.take skb.tail ++ [eidSuppRates,UInt8.ofNat (min c.count 8)]).length = skb.tail + 2 := by
    rw [length_append,length_take_of_le inside]
    rfl
  have length := gapless_iff.mp gapless
  unfold contents Call.firstBuf
  rw [← append_assoc]
  exact Tlv.load_piece _ _ back header (by omega)

end gapless

theorem gapless_trip {c : Call} (gapless : c.Gapless) (room : skb.tail + (min c.count 8 + 2) + (c.count - 8 + 2) ≤ skb.buf.length) :
    ∃ first second rates more, c.addSratesIe skb = .ok first ∧ c.addExtSratesIe first.skb = .ok second ∧
      Counted skb.tail first ∧ Counted first.skb.tail second ∧
      contents second.skb skb.tail first.skb.tail = some rates ∧ contents second.skb first.skb.tail second.skb.tail = some more ∧
      rates ++ more = c.bytes 0 c.bitrates.val.length := by
  have added := @addSratesIe_ok skb c (by omega)
  have inside : skb.tail ≤ skb.buf.length := by omega
  have small := gapless_iff.mp gapless
  obtain ⟨back,same⟩ : ∃ back, back = skb.buf.drop (skb.tail + 2 + (c.bytes 0 (min c.count 8)).length) := ⟨_,rfl⟩
  have rest : back.length = skb.buf.length - (skb.tail + (min c.count 8 + 2)) := by
    rw [same,length_drop]
    omega
  have length := firstBuf_length gapless inside back
  rw [← same] at added
  by_cases many : c.count > 8
  · have later := gapless_later gapless many
    have within := count_le (c := c)
    have ext : c.addExtSratesIe ⟨c.firstBuf skb back,skb.tail + (min c.count 8 + 2)⟩ =
        c.putRates ⟨c.firstBuf skb back,skb.tail + (min c.count 8 + 2)⟩ eidExtSuppRates (c.count - 8) 8 c.bitrates.val.length := by
      unfold Call.addExtSratesIe Skb.tailroom
      rw [if_pos many,length,if_neg (by dsimp only; omega),if_pos (by omega)]
    obtain ⟨end_,put⟩ : ∃ end_, c.putRates ⟨c.firstBuf skb back,skb.tail + (min c.count 8 + 2)⟩ eidExtSuppRates (c.count - 8) 8
        c.bitrates.val.length = .ok ⟨⟨c.firstBuf skb ([eidExtSuppRates,UInt8.ofNat (c.count - 8)] ++ (c.bytes 8 c.bitrates.val.length ++ end_)),
          skb.tail + (min c.count 8 + 2) + (c.count - 8 + 2)⟩,skb.tail + (min c.count 8 + 2) + 2 + (c.bytes 8 c.bitrates.val.length).length⟩ := by
      have stored := element_written eidExtSuppRates (UInt8.ofNat (c.count - 8)) (c.bytes 8 c.bitrates.val.length)
        (show skb.tail + (min c.count 8 + 2) + 2 + (c.bytes 8 c.bitrates.val.length).length ≤ (c.firstBuf skb back).length by omega)
      rw [firstBuf_take gapless inside back] at stored
      exact ⟨_,(putRates_ok _ _ _ _ _ (Nat.le_refl _) _).mpr ⟨_,stored,rfl⟩⟩
    have front : (c.firstBuf skb back).take (skb.tail + (min c.count 8 + 2)) ++
        ([eidExtSuppRates,UInt8.ofNat (c.count - 8)] ++ (c.bytes 8 c.bitrates.val.length ++ end_)) = c.firstBuf skb
          ([eidExtSuppRates,UInt8.ofNat (c.count - 8)] ++ (c.bytes 8 c.bitrates.val.length ++ end_)) := firstBuf_take gapless inside back
    refine ⟨_,_,_,c.bytes 8 c.bitrates.val.length,added,ext.trans put,firstBuf_counted gapless inside _ _,?_,
      firstBuf_contents gapless inside _ _,?_,?_⟩
    · refine .inr ⟨UInt8.ofNat (c.count - 8),?_,?_⟩
      · rw [← front]
        exact written_len _ _ _ _ (by omega)
      · have small : c.count ≤ 32 := Nat.le_trans within c.bitrates.property
        rw [UInt8.toNat_ofNat']
        dsimp only
        omega
    · dsimp only
      rw [← front,← append_assoc]
      refine Tlv.load_piece _ _ _ ?_ (by omega)
      rw [length_append,length_take_of_le (by omega)]
      rfl
    · have eight : min c.count 8 = 8 := by omega
      rw [eight]
      exact bytes_split 8 (by omega)
  have ended : c.addExtSratesIe ⟨c.firstBuf skb back,skb.tail + (min c.count 8 + 2)⟩ =
      .ok ⟨⟨c.firstBuf skb back,skb.tail + (min c.count 8 + 2)⟩,skb.tail + (min c.count 8 + 2)⟩ := by
    unfold Call.addExtSratesIe Skb.tailroom
    rw [if_neg many,length,if_neg (by dsimp only; omega),if_neg (by simp)]
  refine ⟨_,_,_,[],added,ended,firstBuf_counted gapless inside _ _,.inl rfl,firstBuf_contents gapless inside _ _,?_,?_⟩
  · unfold contents Tlv.load
    dsimp only
    rw [length,if_pos (by omega)]
    simp
  · rw [List.append_nil,Nat.min_eq_left (by omega),gapless_few gapless (by omega)]

theorem srates_round_trip_iff (rateFlags : Width → UInt32) (s : Sdata) (needBasic : Bool) (bitrates : Bitrates) (skb : Skb)
    (room : skb.tail + (min (call rateFlags s needBasic bitrates).count 8 + 2) + ((call rateFlags s needBasic bitrates).count - 8 + 2) ≤
      skb.buf.length) :
    RoundTrip rateFlags s needBasic bitrates skb ↔
      (call rateFlags s needBasic bitrates).Gapless ∧ (call rateFlags s needBasic bitrates).Told := by
  have narrow : (call rateFlags s needBasic bitrates).shift = chandefGetShift s.chandef := s.tuned
  have exact_ := told_iff (call rateFlags s needBasic bitrates)
  rw [narrow] at exact_
  constructor
  · intro trip
    have gapless := roundTrip_gapless (by omega) trip
    refine ⟨gapless,exact_.mp ?_⟩
    obtain ⟨first,second,rates,more,added,ext,_,_,read,read',parsed⟩ := trip
    obtain ⟨first',_,_,_,added',ext',_,_,again,again',all⟩ := gapless_trip gapless room
    cases added.symm.trans added'
    cases ext.symm.trans ext'
    cases read.symm.trans again
    cases read'.symm.trans again'
    intro j
    rw [← all]
    exact (parseBitrates_testBit _ j).symm.trans (parsed j)
  · rintro ⟨gapless,told⟩
    obtain ⟨first,second,rates,more,added,ext,counted,counted',read,read',all⟩ := gapless_trip gapless room
    refine ⟨first,second,rates,more,added,ext,counted,counted',read,read',?_⟩
    intro j
    rw [all]
    exact (parseBitrates_testBit _ j).trans (exact_.mpr told j)

-- A device that knows OFDM at 5 and 10 MHz: the first four rates are not usable there.
def sampleFlags (w : Width) : UInt32 := if w = .w5 then 0x20 else if w = .w10 then 0x40 else 0

def sampleBitrates : Bitrates :=
  ⟨[⟨0,10⟩,⟨0,20⟩,⟨0,55⟩,⟨0,110⟩,⟨0x60,60⟩,⟨0x60,90⟩,⟨0x60,120⟩,⟨0x60,180⟩,⟨0x60,240⟩,⟨0x60,360⟩,⟨0x60,480⟩,⟨0x60,540⟩],by decide⟩

def sampleSdata (w : Width) : Sdata where
  chandef := ⟨1,0,2412,w,2412,0⟩
  chanctxConf := some ⟨1,0,2412,w,2412,0⟩
  basicRates := 0x10
  tuned := rfl

theorem srates_narrow_channel : ¬ RoundTrip sampleFlags (sampleSdata .w10) true sampleBitrates ⟨List.replicate 32 0xaa,4⟩ := by
  intro trip
  have gapless := roundTrip_gapless (by decide) trip
  exact absurd (gapless ⟨0,10⟩ (by decide)) (by decide)

-- The OFDM rates first; all but 5.5 Mb/s are usable at 10 MHz.
def ofdmFirst : Bitrates :=
  ⟨[⟨0x60,60⟩,⟨0x60,90⟩,⟨0x60,120⟩,⟨0x60,180⟩,⟨0x60,240⟩,⟨0x60,360⟩,⟨0x60,480⟩,⟨0x60,540⟩,⟨0,55⟩,⟨0x40,10⟩,⟨0x40,20⟩,⟨0x40,110⟩],by decide⟩

theorem srates_round_trip_iff_sample : RoundTrip sampleFlags (sampleSdata .w10) true ofdmFirst ⟨List.replicate 32 0xaa,4⟩ := by
  have apart : ∀ i : Fin ofdmFirst.val.length, usable 0x40 ofdmFirst.val[i] = true → rounded 1 ofdmFirst.val[i] < 128 ∧
      ∀ j : Fin ofdmFirst.val.length, usable 0x40 ofdmFirst.val[j] = true → rounded 1 ofdmFirst.val[j] = rounded 1 ofdmFirst.val[i] → j = i := by
    decide +kernel
  refine (srates_round_trip_iff _ _ _ _ _ (by decide)).mpr ⟨by unfold Call.Gapless; decide,?_⟩
  intro i r rate taken
  obtain ⟨inside,rfl⟩ := List.getElem?_eq_some_iff.mp rate
  obtain ⟨small,only⟩ := apart ⟨i,inside⟩ taken
  refine ⟨small,fun j q rate' taken' same => ?_⟩
  obtain ⟨inside',rfl⟩ := List.getElem?_eq_some_iff.mp rate'
  exact congrArg Fin.val (only ⟨j,inside'⟩ taken' same)

end roundTrip

end Mac80211.Srates

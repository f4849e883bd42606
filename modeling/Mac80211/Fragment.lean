import Mac80211.DefragmentKeys

namespace Mac80211.Fragment
open Ieee80211
open Defragment (Rx)
open DefragmentKeys (seqnoIdx)
open RxReorder (Jiffies)

def fcsLen : Nat := 4

def le16 (data : List UInt8) (i : Nat) : UInt16 := UInt16.ofNat ((data.getD i 0).toNat + 256 * (data.getD (i + 1) 0).toNat)
def putLe16 (data : List UInt8) (i : Nat) (v : UInt16) : List UInt8 := (data.set i v.toUInt8).set (i + 1) (v >>> 8).toUInt8

def addrAt (data : List UInt8) (i : Nat) : EthAddr :=
  macAddr (data.getD i 0) (data.getD (i + 1) 0) (data.getD (i + 2) 0) (data.getD (i + 3) 0) (data.getD (i + 4) 0) (data.getD (i + 5) 0)

def header (data : List UInt8) : Hdr :=
  let fc := le16 data 0
  ⟨fc,addrAt data 4,addrAt data 10,addrAt data 16,le16 data 22,
    if hasA4 fc then addrAt data 24 else macAddr 0 0 0 0 0 0,
    if isDataQos fc then le16 data (if hasA4 fc then 30 else 24) else 0⟩

def mpdu (data : List UInt8) : Mpdu := ⟨header data,data.drop (hdrlen (le16 data 0))⟩

structure TxInfo where
  dontfrag : Bool
  ampdu : Bool
  clearPsFilt : Bool
  firstFragment : Bool
  moreFrames : Bool
  rateCtrlProbe : Bool
  rates : Nat → Int

structure TxSkb where
  data : List UInt8
  info : TxInfo
  queueMapping : Nat
  priority : Nat

-- The threshold of the device, and whether the driver cuts the frames itself.
structure TxData where
  skb : TxSkb
  fragThreshold : Nat
  setFragThreshold : Bool

inductive FragError where
  | einval
  | enomem
  | overPanic

def piece (skb : TxSkb) (hdrlen : Nat) (pos fraglen rem : Int) : TxSkb where
  data := skb.data.take hdrlen ++ (skb.data.drop pos.toNat).take fraglen.toNat
  info := {skb.info with
    clearPsFilt := false,
    firstFragment := false,
    moreFrames := if rem ≠ 0 then true else skb.info.moreFrames}
  queueMapping := skb.queueMapping
  priority := skb.priority

-- room: there is memory for so many more buffers.
def fragmentLoop (skb : TxSkb) (hdrlen : Nat) (perFragm : Int) : Nat → Int → Int → Except FragError (List TxSkb)
  | 0,_,rem => if rem = 0 then .ok [] else .error .enomem
  | room + 1,pos,rem =>
    if rem = 0 then .ok []
    else
      let fraglen := if perFragm > rem then rem else perFragm
      if fraglen < 0 then .error .overPanic
      else
        match fragmentLoop skb hdrlen perFragm room (pos + fraglen) (rem - fraglen) with
        | .ok rest => .ok (piece skb hdrlen pos fraglen (rem - fraglen) :: rest)
        | .error e => .error e

def fragment (room : Nat) (skb : TxSkb) (hdrlen fragThreshold : Nat) : Except FragError (List TxSkb) :=
  let perFragm : Int := fragThreshold - hdrlen - fcsLen
  let rem : Int := skb.data.length - hdrlen - perFragm
  if rem < 0 then .error .einval
  else
    match fragmentLoop skb hdrlen perFragm room (hdrlen + perFragm) rem with
    | .ok rest => .ok ({skb with data := skb.data.take (hdrlen + perFragm).toNat} :: rest)
    | .error e => .error e

def markFragment (skb : TxSkb) (fragnum : Nat) (isLast : Bool) : TxSkb :=
  let fc := le16 skb.data 0
  let data := putLe16 skb.data 0 (if isLast then fc &&& ~~~fctlMoreFrags else fc ||| fctlMoreFrags)
  {skb with
    data := putLe16 data 22 (le16 data 22 ||| UInt16.ofNat (fragnum &&& 0x000f)),
    info := if isLast then skb.info
      else {skb.info with rates := fun i => if 1 ≤ i ∧ i ≤ 3 then -1 else skb.info.rates i,rateCtrlProbe := false}}

def markFragments (fragnum : Nat) : List TxSkb → List TxSkb
  | [] => []
  | skb :: rest => markFragment skb fragnum rest.isEmpty :: markFragments (fragnum + 1) rest

inductive TxResult where
  | continue (skbs : List TxSkb)
  | drop

def txHFragment (room : Nat) (tx : TxData) : TxResult :=
  let skb := tx.skb
  if skb.info.dontfrag then .continue [skb]
  else if tx.setFragThreshold then .continue [skb]
  else if skb.info.ampdu then .drop
  else if skb.data.length + fcsLen ≤ tx.fragThreshold then .drop
  else
    match fragment room skb (hdrlen (le16 skb.data 0)) tx.fragThreshold with
    | .error _ => .drop
    | .ok skbs => .continue (markFragments 0 skbs)

structure Air where
  ccmpKey : Bool
  rxPn : List UInt8
  jiffies : Jiffies
  tailroom : Nat
  linear : Bool
  expanded : Bool

def receive (data : List UInt8) (air : Air) : Rx where
  skb := mpdu data
  seqnoIdx := seqnoIdx (header data)
  ccmpKey := air.ccmpKey
  rxPn := air.rxPn
  jiffies := air.jiffies
  tailroom := air.tailroom
  linear := air.linear
  expanded := air.expanded

section bytes

theorem put_length (data : List UInt8) (i : Nat) (v : UInt16) : (putLe16 data i v).length = data.length := by
  unfold putLe16
  rw [List.length_set,List.length_set]

theorem put_other (data : List UInt8) (v : UInt16) (low : k ≠ i) (high : k ≠ i + 1) :
    (putLe16 data i v).getD k 0 = data.getD k 0 := by
  unfold putLe16
  rw [List.getD_eq_getElem?_getD,List.getElem?_set_ne (Ne.symm high),List.getElem?_set_ne (Ne.symm low),← List.getD_eq_getElem?_getD]

theorem put_drop (data : List UInt8) (v : UInt16) (behind : i + 1 < n) : (putLe16 data i v).drop n = data.drop n := by
  unfold putLe16
  rw [List.drop_set_of_lt behind,List.drop_set_of_lt (by omega)]

theorem le16_put (v : UInt16) (inside : i + 1 < data.length) : le16 (putLe16 data i v) i = v := by
  have low : (putLe16 data i v).getD i 0 = v.toUInt8 := by
    unfold putLe16
    rw [List.getD_eq_getElem?_getD,List.getElem?_set_ne (Nat.succ_ne_self i),List.getElem?_set_self (by omega)]
    rfl
  have high : (putLe16 data i v).getD (i + 1) 0 = (v >>> 8).toUInt8 := by
    unfold putLe16
    rw [List.getD_eq_getElem?_getD,List.getElem?_set_self (by rw [List.length_set]; exact inside)]
    rfl
  unfold le16
  rw [low,high]
  have small := v.toNat_lt
  apply UInt16.toNat_inj.mp
  rw [UInt16.toNat_ofNat',UInt16.toNat_toUInt8,UInt16.toNat_toUInt8,UInt16.toNat_shiftRight,Nat.shiftRight_eq_div_pow]
  have eight : (8 : UInt16).toNat % 16 = 8 := by decide
  rw [eight]
  omega

theorem le16_other (data : List UInt8) (v : UInt16) (apart : j + 1 < i ∨ i + 1 < j) : le16 (putLe16 data i v) j = le16 data j := by
  unfold le16
  rw [put_other data v (by omega) (by omega),put_other data v (by omega) (by omega)]

theorem addrAt_other (data : List UInt8) (v : UInt16) (apart : j + 5 < i ∨ i + 1 < j) : addrAt (putLe16 data i v) j = addrAt data j := by
  unfold addrAt
  rw [put_other data v (by omega) (by omega),put_other data v (by omega) (by omega),put_other data v (by omega) (by omega),
    put_other data v (by omega) (by omega),put_other data v (by omega) (by omega),put_other data v (by omega) (by omega)]

end bytes

theorem or_more (fc : UInt16) (clear : fctlMoreFrags &&& mask = 0) : (fc ||| fctlMoreFrags) &&& mask = fc &&& mask := by
  rw [or_and,clear,UInt16.or_zero]

theorem and_more (fc : UInt16) (clear : ~~~fctlMoreFrags &&& mask = mask) : (fc &&& ~~~fctlMoreFrags) &&& mask = fc &&& mask := by
  rw [UInt16.and_assoc,clear]

def markFc (fc : UInt16) (isLast : Bool) : UInt16 := if isLast then fc &&& ~~~fctlMoreFrags else fc ||| fctlMoreFrags

theorem mark_mask (fc : UInt16) (isLast : Bool) (clear : fctlMoreFrags &&& mask = 0) (within : ~~~fctlMoreFrags &&& mask = mask) :
    markFc fc isLast &&& mask = fc &&& mask := by
  cases isLast with
  | true => exact and_more fc within
  | false => exact or_more fc clear

theorem mark_more (fc : UInt16) (isLast : Bool) : hasMoreFrags (markFc fc isLast) = !isLast := by
  have absent : (0 : UInt16) = ~~~fctlMoreFrags &&& fctlMoreFrags := by decide
  cases isLast with
  | true =>
    unfold hasMoreFrags markFc
    rw [if_pos rfl,UInt16.and_assoc,← absent,UInt16.and_zero]
    rfl
  | false =>
    unfold hasMoreFrags markFc
    rw [if_neg (by decide),or_absorb]
    rfl

section mark
variable (fc : UInt16) (isLast : Bool)

theorem mark_data : isData (markFc fc isLast) = isData fc := by
  unfold isData
  rw [mark_mask fc isLast (by decide) (by decide)]

theorem mark_ctl : isCtl (markFc fc isLast) = isCtl fc := by
  unfold isCtl
  rw [mark_mask fc isLast (by decide) (by decide)]

theorem mark_qos : isDataQos (markFc fc isLast) = isDataQos fc := by
  unfold isDataQos
  rw [mark_mask fc isLast (by decide) (by decide)]

theorem mark_a4 : hasA4 (markFc fc isLast) = hasA4 fc := by
  unfold hasA4
  rw [mark_mask fc isLast (by decide) (by decide)]

theorem mark_protected : hasProtected (markFc fc isLast) = hasProtected fc := by
  unfold hasProtected
  rw [mark_mask fc isLast (by decide) (by decide)]

theorem mark_hdrlen : hdrlen (markFc fc isLast) = hdrlen fc := by
  unfold hdrlen
  rw [mark_data,mark_a4,mark_qos,mark_ctl]
  unfold hasOrder
  rw [mark_mask fc isLast (by decide) (by decide),mark_mask fc isLast (by decide) (by decide)]

end mark

theorem fragment_number (seq : UInt16) (whole : seq &&& 0x000f = 0) (few : k < 16) :
    ((seq ||| UInt16.ofNat (k &&& 0x000f)) &&& 0x000f).toNat = k := by
  have same : k &&& 0x000f = k := by
    rw [Nat.and_two_pow_sub_one_eq_mod k 4]
    exact Nat.mod_eq_of_lt few
  rw [same,or_and,whole,UInt16.zero_or,UInt16.toNat_and,UInt16.toNat_ofNat',Nat.mod_eq_of_lt (by omega)]
  exact same

theorem fragment_seq (seq : UInt16) (k : Nat) : (seq ||| UInt16.ofNat (k &&& 0x000f)) &&& 0xfff0 = seq &&& 0xfff0 := by
  have small : UInt16.ofNat (k &&& 0x000f) &&& 0xfff0 = 0 := by
    rw [UInt16.ofNat_and,UInt16.and_assoc]
    exact UInt16.and_zero
  rw [or_and,small,UInt16.or_zero]

structure Pieces (skb : TxSkb) (hdrlen per : Nat) (payload : List UInt8) (rest : List TxSkb) : Prop where
  each : ∀ f ∈ rest, ∃ part, f.data = skb.data.take hdrlen ++ part ∧ part.length ≤ per
  whole : (rest.map fun f => f.data.drop hdrlen).flatten = payload
  few : ∀ n, payload.length ≤ per * n → rest.length ≤ n

section cut
variable {hdrlen : Nat}

theorem pieces_nil (skb : TxSkb) (hdrlen per : Nat) : Pieces skb hdrlen per [] [] where
  each _ member := nomatch member
  whole := rfl
  few n _ := Nat.zero_le n

theorem Pieces.cons (pieces : Pieces skb hdrlen per (payload.drop per) rest) (header : hdrlen ≤ skb.data.length)
    (left : payload ≠ []) (own : f.data = skb.data.take hdrlen ++ payload.take per) : Pieces skb hdrlen per payload (f :: rest) where
  each g member := by
    rcases List.mem_cons.mp member with rfl | later
    · exact ⟨payload.take per,own,List.length_take_le _ _⟩
    · exact pieces.each g later
  whole := by
    have first : f.data.drop hdrlen = payload.take per := by
      rw [own]
      exact List.drop_left' (List.length_take_of_le header)
    rw [List.map_cons,List.flatten_cons,first,pieces.whole]
    exact List.take_append_drop per payload
  few n enough := by
    have some_left := List.length_pos_iff.mpr left
    cases n with
    | zero =>
      omega
    | succ n =>
      refine Nat.succ_le_succ (pieces.few n ?_)
      rw [List.length_drop,Nat.mul_succ] at *
      omega

theorem fragmentLoop_pieces (header : hdrlen ≤ skb.data.length) (per room pos : Nat)
    (memory : (skb.data.drop pos).length ≤ per * room) :
    ∃ rest, fragmentLoop skb hdrlen per room pos (skb.data.drop pos).length = .ok rest ∧ Pieces skb hdrlen per (skb.data.drop pos) rest := by
  induction room generalizing pos with
  | zero =>
    have none_left : skb.data.drop pos = [] := List.length_eq_zero_iff.mp (by omega)
    rw [none_left]
    exact ⟨[],rfl,pieces_nil skb hdrlen per⟩
  | succ room ih =>
    by_cases left : skb.data.drop pos = []
    · rw [left]
      exact ⟨[],rfl,pieces_nil skb hdrlen per⟩
    have some_left := List.length_pos_iff.mpr left
    have next : (skb.data.drop pos).drop per = skb.data.drop (pos + per) := List.drop_drop ..
    rw [Nat.mul_succ] at memory
    unfold fragmentLoop
    dsimp only
    -- The last buffer may be short; the bytes behind it are none in either case.
    by_cases short : (per : Int) > (skb.data.drop pos).length
    · rw [if_pos short,if_neg (by omega),Int.sub_self]
      have all : (skb.data.drop pos).take per = skb.data.drop pos := List.take_of_length_le (by omega)
      have behind : (skb.data.drop pos).drop per = [] := List.drop_of_length_le (by omega)
      have empty : fragmentLoop skb hdrlen per room (pos + (skb.data.drop pos).length) 0 = .ok [] := by
        cases room <;> rfl
      rw [empty]
      refine ⟨_,rfl,Pieces.cons ?_ header left ?_⟩
      · rw [behind]
        exact pieces_nil skb hdrlen per
      · unfold piece
        rw [Int.toNat_natCast,Int.toNat_natCast,List.take_length,all]
    rw [if_neg short,if_neg (by omega)]
    have behind : ((skb.data.drop pos).drop per).length = (skb.data.drop pos).length - per := List.length_drop ..
    rw [next] at behind
    have rem : ((skb.data.drop pos).length : Int) - per = (skb.data.drop (pos + per)).length := by omega
    have counted : (pos : Int) + per = (pos + per : Nat) := (Int.natCast_add pos per).symm
    obtain ⟨_,same,pieces⟩ := ih (pos + per) (by omega)
    rw [rem,counted,same]
    refine ⟨_,rfl,Pieces.cons ?_ header left ?_⟩
    · rw [next]
      exact pieces
    · unfold piece
      rw [Int.toNat_natCast,Int.toNat_natCast]

theorem fragment_pieces (threshold room : Nat) (header : hdrlen ≤ skb.data.length) (positive : hdrlen + fcsLen < threshold)
    (long : threshold < skb.data.length + fcsLen)
    (memory : skb.data.length ≤ hdrlen + (threshold - hdrlen - fcsLen) * (room + 1)) :
    ∃ first rest, fragment room skb hdrlen threshold = .ok (first :: rest) ∧ rest ≠ [] ∧
      Pieces skb hdrlen (threshold - hdrlen - fcsLen) (skb.data.drop hdrlen) (first :: rest) := by
  generalize found : threshold - hdrlen - fcsLen = per at memory ⊢
  have cast : (threshold : Int) - hdrlen - fcsLen = per := by omega
  have pos : (hdrlen : Int) + per = (hdrlen + per : Nat) := (Int.natCast_add hdrlen per).symm
  have rem : (skb.data.length : Int) - hdrlen - per = (skb.data.drop (hdrlen + per)).length := by
    rw [List.length_drop]
    omega
  rw [Nat.mul_succ] at memory
  obtain ⟨rest,same,pieces⟩ := fragmentLoop_pieces header per room (hdrlen + per) (by rw [List.length_drop]; omega)
  unfold fragment
  dsimp only
  rw [cast,rem,if_neg (by omega),pos,same,Int.toNat_natCast]
  refine ⟨_,rest,rfl,?_,Pieces.cons ?_ header ?_ (List.take_add ..)⟩
  · rintro rfl
    have left : (skb.data.drop (hdrlen + per)).length = 0 := by
      rw [← pieces.whole]
      rfl
    omega
  · rw [List.drop_drop]
    exact pieces
  · intro none_left
    have empty := congrArg List.length none_left
    rw [List.length_drop,List.length_nil] at empty
    omega

end cut

end Mac80211.Fragment

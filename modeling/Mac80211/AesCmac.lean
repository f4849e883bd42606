import Mac80211.Cmac
import Mac80211.Loops
import Mathlib.Algebra.Ring.Nat
import Mathlib.Algebra.BigOperators.Group.List.Basic
import Mathlib.Data.Nat.Find

namespace Mac80211.AesCmac
open Cmac Loops
open Nat (zero_le zero_add succ_pos sub_zero)

def cmacTlen : Nat := 8
def cmacTlen256 : Nat := 16
def aadLen : Nat := 20

def gfMulx (pad : Block) : Block :=
  let carry := get pad 0 &&& 0x80
  let pad := forRange 0 15 (fun i pad => put pad i (get pad i <<< 1 ||| get pad (i + 1) >>> 7)) pad
  let pad := put pad 15 (get pad 15 <<< 1)
  if carry ≠ 0 then put pad 15 (get pad 15 ^^^ 0x87) else pad

-- addr[] and len[]: the memory from each pointer on. Both are read one entry
-- past their end.
structure Elements where
  addr : Nat → Nat → UInt8
  len : Nat → Nat

structure Cursor where
  e : Nat
  pos : Nat

def Elements.advance (els : Elements) (c : Cursor) : Cursor :=
  if c.pos + 1 ≥ els.len c.e then ⟨c.e + 1,0⟩ else {c with pos := c.pos + 1}

def mix (els : Elements) (i : Nat) (s : Block × Cursor) : Block × Cursor :=
  (put s.1 i (get s.1 i ^^^ els.addr s.2.e s.2.pos),els.advance s.2)

def absorb (enc : Block → Block) (els : Elements) (s : Nat × Block × Cursor) : Nat × Block × Cursor :=
  let (cbc,c) := forRange 0 16 (mix els) s.2
  (s.1 - 16,if s.1 > 16 then enc cbc else cbc,c)

def finish (enc : Block → Block) (els : Elements) (totalLen : Nat) (s : Nat × Block × Cursor) : Block :=
  let (left,cbc,c) := s
  let pad := gfMulx (enc zero)
  let (cbc,pad) :=
    if left ≠ 0 ∨ totalLen = 0 then
      let (cbc,_) := forRange 0 left (mix els) (cbc,c)
      (put cbc left (get cbc left ^^^ 0x80),gfMulx pad)
    else (cbc,pad)
  enc (forRange 0 16 (fun i pad => put pad i (get pad i ^^^ get cbc i)) pad)

-- The total length, a size_t, is that of arrays in memory and does not wrap.
def aesCmacVector (enc : Block → Block) (els : Elements) (numElem macLen : Nat) : Option (List UInt8) :=
  let totalLen := forRange 0 numElem (fun e totalLen => totalLen + els.len e) 0
  (whileM (fun s => decide (16 ≤ s.1)) (fun s => some (absorb enc els s)) totalLen (totalLen,zero,⟨0,0⟩)).map fun s =>
    (List.ofFn (finish enc els totalLen s)).take macLen

def subSize (a b : Nat) : Nat := if b ≤ a then a - b else a + 2 ^ 64 - b

-- The array of zeros has tlen bytes; behind it and the arrays of elements lies what is on the stack.
def cmacElements (aad data stack : Nat → UInt8) (beyond : Elements) (dataLen tlen : Nat) : Elements where
  addr
    | 0 => aad
    | 1 => data
    | 2 => fun i => if i < tlen then 0 else stack i
    | e + 3 => beyond.addr e
  len
    | 0 => aadLen
    | 1 => subSize dataLen tlen
    | 2 => tlen
    | e + 3 => beyond.len e

def ieee80211AesCmac (enc : Block → Block) (aad data stack : Nat → UInt8) (beyond : Elements) (dataLen : Nat) : Option (List UInt8) :=
  aesCmacVector enc (cmacElements aad data stack beyond dataLen cmacTlen) 3 cmacTlen

def ieee80211AesCmac256 (enc : Block → Block) (aad data stack : Nat → UInt8) (beyond : Elements) (dataLen : Nat) :
    Option (List UInt8) :=
  aesCmacVector enc (cmacElements aad data stack beyond dataLen cmacTlen256) 3 cmacTlen256

def bytes (m : Nat → UInt8) (n : Nat) : List UInt8 := (List.range n).map m
def messageFrom (els : Elements) (n e : Nat) : List UInt8 := (List.range' e (n - e)).flatMap fun e => bytes (els.addr e) (els.len e)
def message (els : Elements) (n : Nat) : List UInt8 := messageFrom els n 0

section doubling

theorem put_each (pad : Block) (f : Nat → Block → UInt8) (local_to : ∀ i t, i < 16 → (∀ j < 16, i ≤ j → get t j = get pad j) → f i t = f i pad)
    (k : Nat) (small : k ≤ 16) :
    ∀ j < 16, get (forRange 0 k (fun i t => put t i (f i t)) pad) j = if j < k then f j pad else get pad j := by
  refine forRange_rule (fun k (t : Block) => k ≤ 16 → ∀ j < 16, get t j = if j < k then f j pad else get pad j)
    (zero_le k) ?_ ?_ small
  · intro _ j _
    rw [if_neg (by omega)]
  intro i t _ _ held _ j within
  have before := held (by omega)
  have now : f i t = f i pad := by
    refine local_to i t (by omega) fun j within above => ?_
    rw [before j within,if_neg (by omega)]
  rw [get_put _ (by omega),now]
  by_cases same : j = i
  · subst same
    rw [if_pos rfl,if_pos (by omega)]
  · rw [if_neg same,before j within]
    by_cases less : j < i
    · rw [if_pos less,if_pos (by omega)]
    · rw [if_neg less,if_neg (by omega)]

theorem shifted_bytes (pad : Block) :
    ∀ j < 16, get (forRange 0 15 (fun i pad => put pad i (get pad i <<< 1 ||| get pad (i + 1) >>> 7)) pad) j =
      if j < 15 then get pad j <<< 1 ||| get pad (j + 1) >>> 7 else get pad j := by
  have last : ∀ b : Block, get b 16 = 0 := fun b => rfl
  refine put_each pad (fun i pad => get pad i <<< 1 ||| get pad (i + 1) >>> 7) ?_ 15 (by decide)
  intro i t small same
  rw [same i small (Nat.le_refl i)]
  rcases Nat.lt_or_ge (i + 1) 16 with inside | _
  · rw [same (i + 1) inside (Nat.le_succ i)]
  · have end_byte : i + 1 = 16 := by omega
    rw [end_byte,last,last]

theorem carry_bit (a : UInt8) : a &&& 0x80 ≠ 0 ↔ a.toBitVec.getLsbD 7 = true := by
  have mask : (a &&& 0x80).toBitVec = if a.toBitVec.getLsbD 7 then 0x80 else 0 := BitVec.and_twoPow a.toBitVec 7
  rw [ne_eq,← UInt8.toBitVec_inj,mask]
  cases a.toBitVec.getLsbD 7 with
  | true => decide
  | false => decide

theorem left_bit (a : UInt8) (small : t < 8) : (a <<< 1).toBitVec.getLsbD t = (decide (0 < t) && a.toBitVec.getLsbD (t - 1)) := by
  have shifted : (a <<< 1).toBitVec = a.toBitVec <<< 1 := rfl
  rw [shifted,BitVec.getLsbD_shiftLeft,decide_eq_true small,Bool.true_and]
  cases t with
  | zero => rfl
  | succ => simp

theorem right_bit (a : UInt8) (t : Nat) : (a >>> 7).toBitVec.getLsbD t = (decide (t = 0) && a.toBitVec.getLsbD 7) := by
  have shifted : (a >>> 7).toBitVec = a.toBitVec >>> 7 := rfl
  rw [shifted,BitVec.getLsbD_ushiftRight]
  cases t with
  | zero => rfl
  | succ => exact BitVec.getLsbD_of_ge _ _ (by omega)

theorem gfMulx_byte (pad : Block) (small : j < 16) : get (gfMulx pad) j =
    (if j < 15 then get pad j <<< 1 ||| get pad (j + 1) >>> 7 else get pad 15 <<< 1) ^^^
      if get pad 0 &&& 0x80 ≠ 0 ∧ j = 15 then 0x87 else 0 := by
  have bytes := shifted_bytes pad
  unfold gfMulx
  by_cases carry : get pad 0 &&& 0x80 = 0
  · simp only [carry,ne_eq,not_true,false_and,if_false,UInt8.xor_zero,get_put _ (show 15 < 16 by decide),bytes j small,
      bytes 15 (by decide)]
    by_cases last : j = 15
    · simp [last]
    · simp [last,show j < 15 by omega]
  · simp only [carry,ne_eq,not_false_eq_true,true_and,if_true,get_put _ (show 15 < 16 by decide),bytes j small,bytes 15 (by decide)]
    by_cases last : j = 15
    · simp [last]
    · simp [last,show j < 15 by omega]

theorem msb_carry (pad : Block) : (value pad).msb = (get pad 0).toBitVec.getLsbD 7 := by
  exact value_bit pad (by decide)

theorem reduction_bit (small : j < 16) (inside : t < 8) (carry : Bool) :
    (if carry = true ∧ j = 15 then (0x87 : UInt8) else 0).toBitVec.getLsbD t =
      (carry && (0x87 : BitVec 128).getLsbD (8 * (15 - j) + t)) := by
  have zeros : ∀ k, 8 ≤ k → (0x87 : BitVec 128).getLsbD k = false := by
    intro k high
    have narrow : (0x87 : BitVec 128) = (0x87 : BitVec 8).setWidth 128 := rfl
    rw [narrow,BitVec.getLsbD_setWidth,BitVec.getLsbD_of_ge _ _ high,Bool.and_false]
  cases carry with
  | false =>
    exact BitVec.getLsbD_zero
  | true =>
    by_cases last : j = 15
    · subst last
      rw [if_pos ⟨rfl,rfl⟩,Nat.sub_self,Nat.mul_zero,zero_add,Bool.true_and]
      rfl
    · rw [if_neg fun both => last both.2,zeros _ (by omega)]
      exact BitVec.getLsbD_zero

theorem gfMulx_double (pad : Block) : gfMulx pad = ofValue (double (value pad)) := by
  apply block_ext
  intro j small
  apply UInt8.toBitVec_inj.mp
  apply BitVec.eq_of_getLsbD_eq
  intro t inside
  have carry := reduction_bit small inside ((get pad 0).toBitVec.getLsbD 7)
  rw [ofValue_bit _ small,decide_eq_true inside,Bool.true_and,double_bit _ (by omega),msb_carry,← carry,gfMulx_byte pad small,
    UInt8.toBitVec_xor,BitVec.getLsbD_xor]
  simp only [carry_bit]
  congr 1
  by_cases last : j < 15
  · rw [if_pos last,UInt8.toBitVec_or,BitVec.getLsbD_or,left_bit _ inside,right_bit,
      decide_eq_true (show 0 < 8 * (15 - j) + t by omega),Bool.true_and,value_bit _ (by omega)]
    by_cases first : t = 0
    · subst first
      have place : 15 - (8 * (15 - j) + 0 - 1) / 8 = j + 1 := by omega
      have seventh : (8 * (15 - j) + 0 - 1) % 8 = 7 := by omega
      rw [place,seventh]
      rfl
    · have place : 15 - (8 * (15 - j) + t - 1) / 8 = j := by omega
      have below : (8 * (15 - j) + t - 1) % 8 = t - 1 := by omega
      rw [place,below,decide_eq_true (show 0 < t by omega),decide_eq_false first]
      simp
  · have end_byte : j = 15 := by omega
    subst end_byte
    rw [if_neg last,left_bit _ inside,Nat.sub_self,Nat.mul_zero,zero_add]
    by_cases first : t = 0
    · subst first
      rfl
    · have place : 15 - (t - 1) / 8 = 15 := by omega
      have below : (t - 1) % 8 = t - 1 := by omega
      rw [value_bit _ (by omega),place,below]

end doubling

section vector
variable {enc : Block → Block} {els : Elements} {n : Nat} {c : Cursor} {m : List UInt8} {x : Block}

theorem bytes_next (f : Nat → UInt8) (k : Nat) : bytes f (k + 1) = f 0 :: bytes (fun i => f (i + 1)) k := by
  rw [bytes,List.range_succ_eq_map,List.map_cons,List.map_map]
  rfl

theorem messageFrom_next (inside : e < n) : messageFrom els n e = bytes (els.addr e) (els.len e) ++ messageFrom els n (e + 1) := by
  obtain ⟨k,rest⟩ : ∃ k, n - e = k + 1 := ⟨n - e - 1,by omega⟩
  have later : n - (e + 1) = k := by omega
  rw [messageFrom,messageFrom,rest,later,List.range'_succ,List.flatMap_cons]

theorem messageFrom_end (outside : n ≤ e) : messageFrom els n e = [] := by
  rw [messageFrom,Nat.sub_eq_zero_of_le outside]
  rfl

def Reads (els : Elements) (n : Nat) (c : Cursor) (rest : List UInt8) : Prop :=
  rest = [] ∨ c.e < n ∧ c.pos < els.len c.e ∧
    rest = bytes (fun i => els.addr c.e (c.pos + i)) (els.len c.e - c.pos) ++ messageFrom els n (c.e + 1)

theorem start_reads (full : ∀ e < n, 0 < els.len e) : Reads els n ⟨0,0⟩ (message els n) := by
  cases n with
  | zero => exact Or.inl rfl
  | succ n =>
    refine Or.inr ⟨succ_pos n,full 0 (succ_pos n),?_⟩
    rw [message,messageFrom_next (succ_pos n)]
    simp only [zero_add,sub_zero]

theorem advance_reads (full : ∀ e < n, 0 < els.len e) (reads : Reads els n c (b :: rest)) :
    b = els.addr c.e c.pos ∧ Reads els n (els.advance c) rest := by
  rcases reads with none_left | ⟨inside,_,here⟩
  · cases none_left
  obtain ⟨k,left⟩ : ∃ k, els.len c.e - c.pos = k + 1 := ⟨els.len c.e - c.pos - 1,by omega⟩
  rw [left,bytes_next,List.cons_append] at here
  obtain ⟨first,later⟩ := List.cons.inj here
  refine ⟨first,?_⟩
  unfold Elements.advance
  by_cases last : c.pos + 1 ≥ els.len c.e
  · have zero_left : k = 0 := by omega
    rw [zero_left] at later
    rw [if_pos last]
    by_cases more : c.e + 1 < n
    · refine Or.inr ⟨more,full _ more,?_⟩
      rw [later,messageFrom_next more]
      simp only [zero_add,sub_zero]
      rfl
    · rw [messageFrom_end (by omega)] at later
      exact Or.inl later
  · rw [if_neg last]
    refine Or.inr ⟨inside,by dsimp only; omega,?_⟩
    have rest_left : els.len c.e - (c.pos + 1) = k := by omega
    rw [later,rest_left]
    congr 2
    funext i
    rw [Nat.add_assoc,Nat.add_comm 1 i]

theorem mix_reads (full : ∀ e < n, 0 < els.len e) (reads : Reads els n c m) (x : Block) (small : k ≤ 16) (enough : k ≤ m.length) :
    (∀ j < 16, get (forRange 0 k (mix els) (x,c)).1 j = if j < k then get x j ^^^ m.getD j 0 else get x j) ∧
      Reads els n (forRange 0 k (mix els) (x,c)).2 (m.drop k) := by
  refine forRange_rule (fun k (s : Block × Cursor) => k ≤ 16 → k ≤ m.length →
    (∀ j < 16, get s.1 j = if j < k then get x j ^^^ m.getD j 0 else get x j) ∧ Reads els n s.2 (m.drop k))
    (zero_le k) ?_ ?_ small enough
  · intro _ _
    refine ⟨fun j _ => ?_,reads⟩
    rw [if_neg (by omega)]
  intro i s _ _ held _ _
  obtain ⟨bytes,reads⟩ := held (by omega) (by omega)
  rw [List.drop_eq_getElem_cons (by omega)] at reads
  obtain ⟨here,next⟩ := advance_reads full reads
  refine ⟨fun j within => ?_,next⟩
  dsimp only [mix]
  rw [get_put _ (by omega)]
  by_cases same : j = i
  · subst same
    rw [if_pos rfl,if_pos (by omega),bytes j within,if_neg (by omega),← here,List.getD_eq_getElem _ _ (by omega)]
  · rw [if_neg same,bytes j within]
    by_cases less : j < i
    · rw [if_pos less,if_pos (by omega)]
    · rw [if_neg less,if_neg (by omega)]

theorem pad_add (pad cbc : Block) : forRange 0 16 (fun i pad => put pad i (get pad i ^^^ get cbc i)) pad = add pad cbc := by
  apply block_ext
  intro j small
  rw [put_each pad (fun i pad => get pad i ^^^ get cbc i) (fun i t inside same => by rw [same i inside (Nat.le_refl i)]) 16
    (Nat.le_refl 16) j small,if_pos small,get_add]

theorem subkeys (enc : Block → Block) : gfMulx (enc zero) = ofValue (subkey1 enc) ∧ gfMulx (gfMulx (enc zero)) = ofValue (subkey2 enc) := by
  have first : gfMulx (enc zero) = ofValue (subkey1 enc) := gfMulx_double _
  refine ⟨first,?_⟩
  rw [first,gfMulx_double,value_ofValue]
  rfl

theorem finish_part (full : ∀ e < n, 0 < els.len e) (reads : Reads els n c m) (part : m.length < 16) (empty : m = [] → total = 0) :
    finish enc els total (m.length,x,c) = enc (add x (lastBlock enc m)) := by
  have last : m.length ≠ 0 ∨ total = 0 := by
    by_cases some_left : m.length = 0
    · exact Or.inr (empty (List.length_eq_zero_iff.mp some_left))
    · exact Or.inl some_left
  obtain ⟨mixed,_⟩ := mix_reads full reads x (Nat.le_of_lt part) (Nat.le_refl _)
  unfold finish
  dsimp only
  rw [if_pos last]
  rw [pad_add,(subkeys enc).2,lastBlock,if_neg (by omega),add_comm]
  congr 1
  rw [← add_assoc]
  congr 1
  apply block_ext
  intro j small
  rw [get_put _ part,get_add,get_block _ small]
  by_cases same : j = m.length
  · subst same
    rw [if_pos rfl,mixed _ part,if_neg (Nat.lt_irrefl _)]
    simp
  · rw [if_neg same,mixed j small]
    by_cases less : j < m.length
    · rw [if_pos less,List.getD_append _ _ _ _ less]
    · rw [if_neg less,List.getD_eq_default _ _ (by rw [List.length_append,List.length_singleton]; omega),UInt8.xor_zero]

theorem absorb_chain (full : ∀ e < n, 0 < els.len e) (reads : Reads els n c m) (empty : total = 0 ↔ m = []) (fuel : Nat)
    (enough : m.length ≤ fuel) :
    ∃ s, whileM (fun s : Nat × Block × Cursor => decide (16 ≤ s.1)) (fun s => some (absorb enc els s)) fuel (m.length,x,c) = some s ∧
      finish enc els total s = chain enc ((m.length - 1) / 16) x m := by
  induction fuel generalizing m x c with
  | zero =>
    refine ⟨_,whileM_stop _ _ _ (decide_eq_false (by dsimp only; omega)),?_⟩
    rw [finish_part full reads (by omega) empty.mpr,Nat.div_eq_of_lt (by omega)]
    rfl
  | succ fuel ih =>
    by_cases part : m.length < 16
    · refine ⟨_,whileM_stop _ _ _ (decide_eq_false (by dsimp only; omega)),?_⟩
      rw [finish_part full reads part empty.mpr,Nat.div_eq_of_lt (by omega)]
      rfl
    obtain ⟨mixed,later⟩ := mix_reads full reads x (Nat.le_refl 16) (by omega)
    have sum : (forRange 0 16 (mix els) (x,c)).1 = add x (block m) := by
      apply block_ext
      intro j small
      rw [mixed j small,if_pos small,get_add,get_block _ small]
    have going : (fun s : Nat × Block × Cursor => decide (16 ≤ s.1)) (m.length,x,c) = true :=
      decide_eq_true (show 16 ≤ m.length by omega)
    rw [whileM_next (fun s : Nat × Block × Cursor => decide (16 ≤ s.1)) (fun s => some (absorb enc els s)) fuel going rfl]
    by_cases more : 16 < m.length
    · have shorter : (m.drop 16).length = m.length - 16 := List.length_drop
      have rounds : (m.length - 1) / 16 = (m.length - 16 - 1) / 16 + 1 := by omega
      have left : total = 0 ↔ m.drop 16 = [] := by
        rw [empty,← List.length_eq_zero_iff,← List.length_eq_zero_iff,shorter]
        omega
      have round : absorb enc els (m.length,x,c) =
          ((m.drop 16).length,enc (add x (block m)),(forRange 0 16 (mix els) (x,c)).2) := by
        rw [shorter,← sum]
        exact congrArg (fun y => (m.length - 16,y,(forRange 0 16 (mix els) (x,c)).2)) (if_pos more)
      rw [round,rounds,← shorter]
      exact ih later left (by omega)
    have whole : m.length = 16 := by omega
    have round : absorb enc els (m.length,x,c) = (0,add x (block m),(forRange 0 16 (mix els) (x,c)).2) := by
      rw [← sum]
      have zero_left : m.length - 16 = 0 := by omega
      have one := congrArg (fun y => (m.length - 16,y,(forRange 0 16 (mix els) (x,c)).2))
        (if_neg more : (if m.length > 16 then enc (forRange 0 16 (mix els) (x,c)).1 else (forRange 0 16 (mix els) (x,c)).1) = _)
      rw [zero_left] at one
      rw [← one]
      exact congrArg (fun k => (k,_,_)) zero_left
    rw [round]
    refine ⟨_,whileM_stop _ _ _ rfl,?_⟩
    have some_bytes : total ≠ 0 := by
      intro zero_total
      rw [empty.mp zero_total] at whole
      cases whole
    have keep : ¬((0 : Nat) ≠ 0 ∨ total = 0) := by simp [some_bytes]
    unfold finish
    dsimp only
    rw [if_neg keep]
    rw [pad_add,(subkeys enc).1,whole]
    show _ = enc (add x (lastBlock enc m))
    rw [lastBlock,if_pos whole,add_comm,add_assoc]

theorem total_length (els : Elements) (n : Nat) : forRange 0 n (fun e total => total + els.len e) 0 = (message els n).length := by
  refine forRange_rule (fun k total => total = (message els k).length) (zero_le n) rfl ?_
  rintro i _ _ _ rfl
  rw [message,message,messageFrom,messageFrom,sub_zero,sub_zero,List.range'_concat,List.flatMap_append,List.length_append]
  simp [bytes]

theorem vector_correct (full : ∀ e < n, 0 < els.len e) (macLen : Nat) :
    aesCmacVector enc els n macLen = some ((List.ofFn (cmac enc (message els n))).take macLen) := by
  obtain ⟨s,ran,done⟩ := @absorb_chain enc els n ⟨0,0⟩ (message els n) zero _ full (start_reads full) List.length_eq_zero_iff _ (Nat.le_refl _)
  unfold aesCmacVector
  dsimp only
  rw [total_length,ran,Option.map_some,done]
  rfl

theorem message_elements (aad data stack : Nat → UInt8) (beyond : Elements) (room : tlen ≤ dataLen) :
    message (cmacElements aad data stack beyond dataLen tlen) 3 =
      bytes aad aadLen ++ bytes data (dataLen - tlen) ++ List.replicate tlen 0 := by
  have zeros : bytes (fun i => if i < tlen then 0 else stack i) tlen = List.replicate tlen (0 : UInt8) := by
    rw [bytes,List.eq_replicate_iff]
    refine ⟨by simp,fun b member => ?_⟩
    obtain ⟨i,inside,rfl⟩ := List.mem_map.mp member
    exact if_pos (List.mem_range.mp inside)
  have rest : subSize dataLen tlen = dataLen - tlen := if_pos room
  rw [← zeros,← rest,List.append_assoc]
  show _ ++ (_ ++ (_ ++ [])) = _
  rw [List.append_nil]
  rfl

theorem elements_full (aad data stack : Nat → UInt8) (beyond : Elements) (some_mic : 0 < tlen) (some_data : tlen < dataLen) :
    ∀ e < 3, 0 < (cmacElements aad data stack beyond dataLen tlen).len e := by
  have rest : subSize dataLen tlen = dataLen - tlen := if_pos (by omega)
  intro e _
  have cases : e = 0 ∨ e = 1 ∨ e = 2 := by omega
  rcases cases with rfl | rfl | rfl
  · exact show 0 < aadLen by decide
  · show 0 < subSize dataLen tlen
    omega
  · exact some_mic

-- So is what the two callers compute, for data that is more than a MIC.
theorem aes_cmac_correct (enc : Block → Block) :
    (∀ els n macLen, (∀ e < n, 0 < els.len e) →
      aesCmacVector enc els n macLen = some ((List.ofFn (cmac enc (message els n))).take macLen)) ∧
    (∀ aad data stack beyond dataLen, cmacTlen < dataLen → ieee80211AesCmac enc aad data stack beyond dataLen =
      some ((List.ofFn (cmac enc (bytes aad aadLen ++ bytes data (dataLen - cmacTlen) ++ List.replicate cmacTlen 0))).take cmacTlen)) ∧
    ∀ aad data stack beyond dataLen, cmacTlen256 < dataLen → ieee80211AesCmac256 enc aad data stack beyond dataLen =
      some ((List.ofFn (cmac enc (bytes aad aadLen ++ bytes data (dataLen - cmacTlen256) ++ List.replicate cmacTlen256 0))).take
        cmacTlen256) := by
  refine ⟨fun els n macLen full => vector_correct full macLen,fun aad data stack beyond dataLen more => ?_,
    fun aad data stack beyond dataLen more => ?_⟩
  · rw [ieee80211AesCmac,vector_correct (elements_full aad data stack beyond (by decide) more),
      message_elements aad data stack beyond (Nat.le_of_lt more)]
  · rw [ieee80211AesCmac256,vector_correct (elements_full aad data stack beyond (by decide) more),
      message_elements aad data stack beyond (Nat.le_of_lt more)]

end vector

-- Data that is only a MIC: its first byte is taken for a zero.
namespace CmacSample

def data : Nat → UInt8 := fun i => UInt8.ofNat (i + 1)
def beyond : Elements := ⟨fun _ _ => 0,fun _ => 0⟩

end CmacSample

open CmacSample in
theorem empty_data : ieee80211AesCmac id (fun _ => 0) data (fun _ => 0) beyond cmacTlen ≠
    some ((List.ofFn (cmac id (bytes (fun _ => 0) aadLen ++ bytes data (cmacTlen - cmacTlen) ++ List.replicate cmacTlen 0))).take cmacTlen) := by
  decide +kernel

open CmacSample in
theorem aes_cmac_correct_sample : ieee80211AesCmac id (fun _ => 0) data (fun _ => 0) beyond 18 =
    some ((List.ofFn (cmac id (bytes (fun _ => 0) aadLen ++ bytes data (18 - cmacTlen) ++ List.replicate cmacTlen 0))).take cmacTlen) ∧
    aesCmacVector id ⟨fun _ => data,fun e => e + 1⟩ 6 16 =
      some ((List.ofFn (cmac id (message ⟨fun _ => data,fun e => e + 1⟩ 6))).take 16) :=
  ⟨(aes_cmac_correct id).2.1 _ _ _ _ _ (by decide),(aes_cmac_correct id).1 _ 6 16 fun e _ => succ_pos e⟩

open Cmac Loops

-- A read of addr[e], of len[e], or of a byte of an element.
inductive Read where
  | addr (e : Nat)
  | len (e : Nat)
  | byte (e pos : Nat)
deriving DecidableEq

def Read.Valid (els : Elements) (numElem : Nat) : Read → Prop
  | .addr e => e < numElem
  | .len e => e < numElem
  | .byte e pos => e < numElem ∧ pos < els.len e

-- mix moves on to the next element right after the last byte of one.
def mixReads (els : Elements) (c : Cursor) : List Read :=
  .byte c.e c.pos :: if c.pos + 1 ≥ els.len c.e then [.addr (c.e + 1),.len (c.e + 1)] else []

def cursorReads (els : Elements) : Nat → Cursor → List Read
  | 0,_ => []
  | k + 1,c => mixReads els c ++ cursorReads els k (els.advance c)

def vectorReads (enc : Block → Block) (els : Elements) (numElem : Nat) : Option (List Read) :=
  let totalLen := forRange 0 numElem (fun e totalLen => totalLen + els.len e) 0
  (whileM (fun s => decide (16 ≤ s.2.1)) (fun s => some (s.1 ++ cursorReads els 16 s.2.2.2,absorb enc els s.2)) totalLen
    ((List.range numElem).map .len ++ [.addr 0,.len 0],totalLen,zero,⟨0,0⟩)).map fun s =>
      s.1 ++ if s.2.1 ≠ 0 ∨ totalLen = 0 then cursorReads els s.2.1 s.2.2.2 else []

def totalLen (els : Elements) (n : Nat) : Nat := ((List.range n).map els.len).sum

section reads

theorem totalLen_next (els : Elements) (n : Nat) : totalLen els (n + 1) = totalLen els n + els.len n := by
  simp [totalLen,List.range_succ]

theorem totalLen_loop (els : Elements) (n : Nat) : forRange 0 n (fun e totalLen => totalLen + els.len e) 0 = totalLen els n := by
  refine forRange_rule (fun k total => total = totalLen els k) (zero_le n) rfl ?_
  rintro k _ _ _ rfl
  exact (totalLen_next els k).symm

theorem totalLen_mono (els : Elements) (le : k ≤ n) : totalLen els k ≤ totalLen els n := by
  induction n, le using Nat.le_induction with
  | base => exact Nat.le_refl _
  | succ =>
    rw [totalLen_next]
    omega

theorem totalLen_same (le : k ≤ n) : totalLen els n = totalLen els k ↔ ∀ e, k ≤ e → e < n → els.len e = 0 := by
  induction n, le using Nat.le_induction with
  | base => exact iff_of_true rfl fun e above below => absurd below (Nat.not_lt_of_le above)
  | succ n above ih =>
    have more := totalLen_mono els above
    rw [totalLen_next]
    constructor
    · intro _ e low below
      rcases Nat.lt_succ_iff_lt_or_eq.mp below with inside | rfl
      · exact ih.mp (by omega) e low inside
      · omega
    · intro empty
      rw [empty n above n.lt_succ_self,ih.mpr fun e low below => empty e low (Nat.lt_succ_of_lt below),Nat.add_zero]

theorem cursorReads_add (els : Elements) (k m : Nat) (c : Cursor) :
    cursorReads els (k + m) c = cursorReads els k c ++ cursorReads els m (els.advance^[k] c) := by
  induction k generalizing c with
  | zero => rw [zero_add]; rfl
  | succ k ih => rw [Nat.succ_add,cursorReads,ih,cursorReads,List.append_assoc,Function.iterate_succ_apply]

theorem mix_cursor (els : Elements) (k : Nat) (x : Block) (c : Cursor) : (forRange 0 k (mix els) (x,c)).2 = els.advance^[k] c := by
  refine forRange_rule (fun k (s : Block × Cursor) => s.2 = els.advance^[k] c) (zero_le k) rfl ?_
  intro i s _ _ same
  rw [Function.iterate_succ_apply',← same]
  rfl

theorem vectorReads_eq (enc : Block → Block) (els : Elements) (n : Nat) :
    vectorReads enc els n = some ((List.range n).map .len ++ [.addr 0,.len 0] ++ cursorReads els (totalLen els n) ⟨0,0⟩) := by
  unfold vectorReads
  dsimp only
  rw [totalLen_loop]
  generalize (List.range n).map Read.len ++ [.addr 0,.len 0] = first
  obtain ⟨s,ran,whole,_⟩ := whileM_returns (fun s : List Read × Nat × Block × Cursor => decide (16 ≤ s.2.1))
    (fun s => some (s.1 ++ cursorReads els 16 s.2.2.2,absorb enc els s.2)) (totalLen els n)
    (fun s => s.1 ++ cursorReads els s.2.1 s.2.2.2 = first ++ cursorReads els (totalLen els n) ⟨0,0⟩) (fun s => s.2.1)
    (s := (first,totalLen els n,zero,⟨0,0⟩)) rfl
    (by
      rintro ⟨rs,left,x,c⟩ whole going
      have enough : 16 ≤ left := of_decide_eq_true going
      refine ⟨_,rfl,?_,?_⟩
      · rw [← whole]
        change (rs ++ cursorReads els 16 c) ++ cursorReads els (left - 16) (forRange 0 16 (mix els) (x,c)).2 = rs ++ cursorReads els left c
        rw [mix_cursor,List.append_assoc,← cursorReads_add]
        congr 2
        omega
      · change left - 16 < left
        omega)
    (Nat.le_refl _)
  rw [ran,Option.map_some,← whole]
  congr 2
  split
  · rfl
  · have none_left : s.2.1 = 0 := by omega
    rw [none_left]
    rfl

theorem rest_reads (els : Elements) (e m pos : Nat) (rest : pos + (m + 1) = els.len e) :
    cursorReads els (m + 1) ⟨e,pos⟩ = (List.range' pos (m + 1)).map (.byte e) ++ [.addr (e + 1),.len (e + 1)] ∧
      els.advance^[m + 1] ⟨e,pos⟩ = ⟨e + 1,0⟩ := by
  induction m generalizing pos with
  | zero =>
    have last : pos + 1 ≥ els.len e := by omega
    simp [cursorReads,mixReads,Elements.advance,last]
  | succ m ih =>
    obtain ⟨reads,there⟩ := ih (pos + 1) (by omega)
    have inside : ¬ pos + 1 ≥ els.len e := by omega
    have moved : els.advance ⟨e,pos⟩ = ⟨e,pos + 1⟩ := if_neg inside
    constructor
    · rw [cursorReads,moved,reads,List.range'_succ,mixReads,if_neg inside]
      rfl
    · rw [Function.iterate_succ_apply,moved,there]

def elementReads (els : Elements) (e : Nat) : List Read :=
  (List.range (els.len e)).map (.byte e) ++ [.addr (e + 1),.len (e + 1)]

theorem element_reads (full : 0 < els.len e) :
    cursorReads els (els.len e) ⟨e,0⟩ = elementReads els e ∧ els.advance^[els.len e] ⟨e,0⟩ = ⟨e + 1,0⟩ := by
  obtain ⟨m,rest⟩ : ∃ m, els.len e = m + 1 := ⟨els.len e - 1,by omega⟩
  rw [elementReads,rest,List.range_eq_range']
  exact rest_reads els e m 0 (by omega)

theorem elements_reads (full : ∀ e < k, 0 < els.len e) :
    cursorReads els (totalLen els k) ⟨0,0⟩ = (List.range k).flatMap (elementReads els) ∧ els.advance^[totalLen els k] ⟨0,0⟩ = ⟨k,0⟩ := by
  induction k with
  | zero => exact ⟨rfl,rfl⟩
  | succ k ih =>
    obtain ⟨reads,there⟩ := ih fun e below => full e (Nat.lt_succ_of_lt below)
    obtain ⟨more,next⟩ := element_reads (full k k.lt_succ_self)
    rw [totalLen_next]
    constructor
    · rw [cursorReads_add,reads,there,more,List.range_succ,List.flatMap_append,List.flatMap_singleton]
    · rw [Nat.add_comm,Function.iterate_add_apply,there,next]

theorem elementReads_valid (els : Elements) (e n : Nat) : (∀ read ∈ elementReads els e, read.Valid els n) ↔ e + 1 < n := by
  simp only [elementReads,List.forall_mem_append,List.forall_mem_map,List.forall_mem_cons,List.mem_range,Read.Valid]
  constructor
  · exact fun valid => valid.2.1
  · exact fun below => ⟨fun pos inside => ⟨by omega,inside⟩,below,below,nofun⟩

theorem reads_valid_empty (within : k < n) (full : ∀ e < k, 0 < els.len e) (empty : els.len k = 0) :
    (∀ read ∈ cursorReads els (totalLen els n) ⟨0,0⟩, read.Valid els n) ↔ totalLen els n = totalLen els k := by
  obtain ⟨reads,there⟩ := elements_reads full
  constructor
  · intro valid
    by_contra more
    obtain ⟨m,rest⟩ : ∃ m, totalLen els n = totalLen els k + (m + 1) :=
      ⟨totalLen els n - totalLen els k - 1,by have := totalLen_mono els (Nat.le_of_lt within); omega⟩
    rw [rest,cursorReads_add,there] at valid
    have first := valid (.byte k 0) (List.mem_append_right _ (by simp [cursorReads,mixReads]))
    have inside : 0 < els.len k := first.2
    omega
  · intro same
    rw [same,reads]
    intro read member
    obtain ⟨e,below,member⟩ := List.mem_flatMap.mp member
    have below := List.mem_range.mp below
    exact (elementReads_valid els e n).mpr (by omega) read member

theorem reads_invalid_full (positive : 0 < n) (full : ∀ e < n, 0 < els.len e) :
    ∃ read ∈ cursorReads els (totalLen els n) ⟨0,0⟩, ¬read.Valid els n := by
  refine ⟨.addr n,?_,Nat.lt_irrefl n⟩
  obtain ⟨last,rfl⟩ : ∃ last, n = last + 1 := ⟨n - 1,by omega⟩
  rw [(elements_reads full).1]
  exact List.mem_flatMap.mpr ⟨last,List.mem_range.mpr last.lt_succ_self,by simp [elementReads]⟩

end reads

-- The last element is empty, and behind an empty one there are no others.
def Trailing (els : Elements) (n : Nat) : Prop :=
  (∃ e < n, els.len e = 0) ∧ ∀ e f, e < f → f < n → els.len e = 0 → els.len f = 0

theorem vector_reads_inside_iff (enc : Block → Block) (els : Elements) (n : Nat) (some_bytes : 1 ≤ totalLen els n) :
    ∃ reads, vectorReads enc els n = some reads ∧ ((∀ read ∈ reads, read.Valid els n) ↔ Trailing els n) := by
  have positive : 0 < n := by
    rcases Nat.eq_zero_or_pos n with rfl | positive
    · cases some_bytes
    · exact positive
  refine ⟨_,vectorReads_eq enc els n,?_⟩
  have before : ∀ read ∈ (List.range n).map Read.len ++ [.addr 0,.len 0], read.Valid els n := by
    simp only [List.forall_mem_append,List.forall_mem_map,List.mem_range,List.forall_mem_cons]
    exact ⟨fun _ below => below,positive,positive,nofun⟩
  rw [List.forall_mem_append,and_iff_right before]
  by_cases none_empty : ∀ e < n, 0 < els.len e
  · obtain ⟨read,member,invalid⟩ := reads_invalid_full positive none_empty
    refine iff_of_false (fun valid => invalid (valid read member)) ?_
    rintro ⟨⟨e,below,empty⟩,_⟩
    have := none_empty e below
    omega
  · have some_empty : ∃ e, e < n ∧ els.len e = 0 := by
      by_contra none
      exact none_empty fun e below => Nat.pos_of_ne_zero fun empty => none ⟨e,below,empty⟩
    -- The first of the empty elements.
    obtain ⟨within,empty⟩ := Nat.find_spec some_empty
    have full : ∀ e < Nat.find some_empty, 0 < els.len e := by
      intro e below
      have held := Nat.find_min some_empty below
      omega
    generalize Nat.find some_empty = k at within empty full
    rw [reads_valid_empty within full empty,totalLen_same (Nat.le_of_lt within)]
    constructor
    · intro rest
      refine ⟨⟨k,within,empty⟩,fun e f behind below zero => rest f ?_ below⟩
      by_contra early
      have := full e (by omega)
      omega
    · intro trailing e above below
      rcases Nat.lt_or_eq_of_le above with behind | rfl
      · exact trailing.2 k e behind below empty
      · exact empty

theorem vector_reads_inside_sample :
    let els : Elements := ⟨fun _ _ => 0,fun e => if e = 0 then 5 else 0⟩
    1 ≤ totalLen els 2 ∧ ∃ reads, vectorReads id els 2 = some reads ∧ ((∀ read ∈ reads, read.Valid els 2) ↔ Trailing els 2) :=
  ⟨by decide,vector_reads_inside_iff id ⟨fun _ _ => 0,fun e => if e = 0 then 5 else 0⟩ 2 (by decide)⟩

theorem last_byte_overreads :
    let els : Elements := ⟨fun _ _ => 0,fun _ => 1⟩
    1 ≤ totalLen els 1 ∧ ¬∃ reads, vectorReads id els 1 = some reads ∧ ∀ read ∈ reads, read.Valid els 1 := by
  refine ⟨by decide,?_⟩
  rintro ⟨_,ran,valid⟩
  have all : vectorReads id ⟨fun _ _ => 0,fun _ => 1⟩ 1 = some [.len 0,.addr 0,.len 0,.byte 0 0,.addr 1,.len 1] := by
    rw [vectorReads_eq]
    rfl
  rw [all] at ran
  cases ran
  exact absurd (valid (.addr 1) (by decide)) (Nat.lt_irrefl 1)

end Mac80211.AesCmac

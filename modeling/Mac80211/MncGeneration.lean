import Mathlib.Algebra.BigOperators.Ring.Finset
import Mathlib.Tactic.Ring
import Mac80211.MncTx

namespace Mac80211
open Gf Loops Finset
open Function (update update_of_ne update_self)

-- k originals of len bytes, coded in blocks of p bytes under one eid.
structure Generation where
  k : Nat
  p : Nat
  len : Nat
  eid : UInt8
  originals : Nat → Nat → UInt8

def bytes (f : Nat → UInt8) (o : Nat) : GF := ⟨f o⟩

namespace Generation

def kp (G : Generation) : UInt8 := MncTx.kpByte G.k G.p
def headSize (G : Generation) : Nat := 3 + G.p * G.p * G.k

def whole (G : Generation) : Nat := G.p * (G.len / G.p)

def combination (G : Generation) (header : Nat → UInt8) (o : Nat) : GF :=
  ∑ l ∈ range G.k, ∑ j ∈ range G.p,
    bytes header (3 + l * (G.p * G.p) + o % G.p * G.p + j) * bytes (G.originals l) (o / G.p * G.p + j)

structure Systematic (G : Generation) (i : Nat) (skb : Skb) : Prop where
  index : i < G.k
  kp : skb.byte 0 = G.kp
  eid : skb.byte 1 = G.eid
  third : skb.byte 2 = UInt8.ofNat (i <<< 2)
  length : skb.len = 3 + G.len
  payload : ∀ o < G.len, skb.byte (3 + o) = G.originals i o

structure Coded (G : Generation) (skb : Skb) : Prop where
  kp : skb.byte 0 = G.kp
  eid : skb.byte 1 = G.eid
  third : skb.byte 2 >>> 2 = 0x3f
  length : skb.len = G.headSize + G.len
  payload : ∀ o < G.whole, bytes skb.byte (G.headSize + o) = G.combination skb.byte o

def Packet (G : Generation) (skb : Skb) : Prop := (∃ i, G.Systematic i skb) ∨ G.Coded skb

end Generation

namespace MncTx

theorem position_inj {p : Nat} (hb : b < p) (hj : j < p) (same : a * p + b = i * p + j) : a = i ∧ b = j := by
  have rows : a = i := by
    rw [← (block_parts hb a).1,same,(block_parts hj i).1]
  subst a
  exact ⟨rfl,by omega⟩

theorem position_lt {rows : Nat} (ha : a < rows) (hb : b < p) : a * p + b < rows * p := by
  calc a * p + b < a * p + p := by omega
    _ = (a + 1) * p := by ring
    _ ≤ rows * p := Nat.mul_le_mul_right p ha

theorem calData_row (data : Nat → UInt8) (coefficient : Nat → UInt8) (at_ : Nat) (mem : Nat → UInt8) (p : Nat) :
    (let after := forRange 0 p (fun j mem => update mem at_ (gadd (mem at_) (gmul (data j) (coefficient j)))) mem
    bytes after at_ = bytes mem at_ + ∑ j ∈ range p, bytes coefficient j * bytes data j ∧
      ∀ a, a ≠ at_ → after a = mem a) := by
  refine forRange_rule (fun n (after : Nat → UInt8) =>
    bytes after at_ = bytes mem at_ + ∑ j ∈ range n, bytes coefficient j * bytes data j ∧
      ∀ a, a ≠ at_ → after a = mem a) (Nat.zero_le _) ?_ ?_
  · simp
  · rintro n after _ _ ⟨sum,frame⟩
    constructor
    · have added : bytes (update after at_ (gadd (after at_) (gmul (data n) (coefficient n)))) at_ =
          bytes after at_ + bytes data n * bytes coefficient n := by
        simp [bytes]
      rw [added,sum,sum_range_succ,mul_comm (bytes data n),add_assoc]
    · intro a other
      rw [update_of_ne other,frame a other]

theorem calData_bytes (data : Nat → UInt8) (p : Nat) (coefficient : Nat → Nat → UInt8) (dataNew : Nat) (mem : Nat → UInt8) :
    (∀ i < p, bytes (calData data p coefficient dataNew mem) (dataNew + i) =
      bytes mem (dataNew + i) + ∑ j ∈ range p, bytes (coefficient i) j * bytes data j) ∧
    ∀ a, a < dataNew ∨ dataNew + p ≤ a → calData data p coefficient dataNew mem a = mem a := by
  have rows := @forRange_rule _ 0 p mem (fun i mem => forRange 0 p (fun j mem =>
      update mem (dataNew + i) (gadd (mem (dataNew + i)) (gmul (data j) (coefficient i j)))) mem)
    (fun n (after : Nat → UInt8) =>
      (∀ i < n, bytes after (dataNew + i) =
        bytes mem (dataNew + i) + ∑ j ∈ range p, bytes (coefficient i) j * bytes data j) ∧
      ∀ a, a < dataNew ∨ dataNew + n ≤ a → after a = mem a)
    (Nat.zero_le _) ⟨fun i bound => by omega,fun a _ => rfl⟩ ?_
  · exact rows
  rintro n after _ _ ⟨done,frame⟩
  obtain ⟨sum,rest⟩ := calData_row data (coefficient n) (dataNew + n) after p
  constructor
  · intro i _
    by_cases here : i = n
    · subst i
      rw [sum]
      simp only [bytes]
      rw [frame _ (.inr (Nat.le_refl _))]
    · simp only [bytes]
      rw [rest _ (by omega)]
      exact done i (by omega)
  · intro a _
    rw [rest a (by omega)]
    exact frame a (by omega)

structure DrawKeeps (before after : Encoding) (dataNew : Nat) : Prop where
  packet : after.skbNew = {before.skbNew with mem := after.skbNew.mem}
  next : after.kernel.nextSkb = before.kernel.nextSkb
  log : after.kernel.log = before.kernel.log
  frame : ∀ a, a < dataNew + 3 + before.l ∨ dataNew + 3 + after.l ≤ a → after.skbNew.mem a = before.skbNew.mem a

def Drawn (before after : Encoding) (dataNew p count : Nat) : Prop :=
  after.l = before.l + count ∧ DrawKeeps before after dataNew ∧
    ∀ a b, b < p → a * p + b < count →
      after.coefficient a b = after.skbNew.mem (dataNew + 3 + before.l + (a * p + b))

theorem drawn_next (drawn : Drawn before after dataNew p (i * p + j)) (column : j < p) :
    Drawn before (drawCoefficient dataNew i j after) dataNew p (i * p + j + 1) := by
  obtain ⟨position,keeps,block⟩ := drawn
  refine ⟨?_,⟨?_,keeps.next,keeps.log,?_⟩,?_⟩
  · simp only [drawCoefficient,getRandomByte,position]
    omega
  · rw [drawCoefficient]
    rw [keeps.packet]
  · intro a outside
    simp only [drawCoefficient,getRandomByte] at outside ⊢
    rw [update_of_ne (by omega)]
    exact keeps.frame a (by omega)
  intro a b hb _
  simp only [drawCoefficient,getRandomByte]
  by_cases here : a * p + b = i * p + j
  · obtain ⟨rfl,rfl⟩ := position_inj hb column here
    have address : dataNew + 3 + before.l + (a * p + b) = dataNew + 3 + after.l := by omega
    rw [address,update_self,update_self,update_self]
  · have other : update after.coefficient i (update (after.coefficient i) j (after.kernel.random after.kernel.drawn)) a b =
        after.coefficient a b := by
      by_cases row : a = i
      · subst a
        rw [update_self,update_of_ne (by omega)]
      · rw [update_of_ne row]
    rw [other,update_of_ne (by omega)]
    exact block a b hb (by omega)

theorem draw_block (e : Encoding) (dataNew p : Nat) :
    Drawn e (forRange 0 p (fun i e => forRange 0 p (fun j e => drawCoefficient dataNew i j e) e) e) dataNew p (p * p) := by
  refine forRange_rule (fun i after => Drawn e after dataNew p (i * p)) (Nat.zero_le _) ?_ ?_
  · refine ⟨by simp,⟨rfl,rfl,rfl,fun _ _ => rfl⟩,?_⟩
    intro a b _ _
    omega
  · intro i after _ _ drawn
    have row := forRange_rule (s := after) (fun j after => Drawn e after dataNew p (i * p + j)) (Nat.zero_le p) drawn
      fun j after _ column drawn => drawn_next drawn column
    have count : (i + 1) * p = i * p + p := by ring
    rwa [count]

theorem addBlocks (skb : Skb) (data p : Nat) (coefficient : Nat → Nat → UInt8) (pay count : Nat) (mem : Nat → UInt8) :
    (let after := forRange 0 count (fun t mem =>
      calData (fun o => skb.mem (data + t * p + o)) p coefficient (pay + t * p) mem) mem
    (∀ t < count, ∀ i < p, bytes after (pay + (t * p + i)) =
      bytes mem (pay + (t * p + i)) + ∑ j ∈ range p, bytes (coefficient i) j * bytes skb.mem (data + t * p + j)) ∧
    ∀ a, a < pay ∨ pay + count * p ≤ a → after a = mem a) := by
  refine forRange_rule (fun n (after : Nat → UInt8) =>
    (∀ t < n, ∀ i < p, bytes after (pay + (t * p + i)) =
      bytes mem (pay + (t * p + i)) + ∑ j ∈ range p, bytes (coefficient i) j * bytes skb.mem (data + t * p + j)) ∧
    ∀ a, a < pay ∨ pay + n * p ≤ a → after a = mem a) (Nat.zero_le _) ⟨fun t bound => by omega,fun a _ => rfl⟩ ?_
  rintro n after _ _ ⟨done,frame⟩
  obtain ⟨sum,rest⟩ := calData_bytes (fun o => skb.mem (data + n * p + o)) p coefficient (pay + n * p) after
  have next : (n + 1) * p = n * p + p := by ring
  constructor
  · intro t _ i row
    by_cases here : t = n
    · subst t
      have address : pay + (n * p + i) = pay + n * p + i := by omega
      rw [address,sum i row]
      simp only [bytes]
      rw [frame _ (.inr (by omega))]
    · have inside := position_lt (show t < n by omega) row
      simp only [bytes]
      rw [rest _ (by omega)]
      exact done t (by omega) i row
  · intro a _
    rw [rest a (by omega)]
    exact frame a (by omega)

def codingByte (src : Bool) (skb : Skb) (o : Nat) : UInt8 :=
  skb.mem (skb.data + (if src then etherHeadLen else 0) + o)

-- The payload is the sum of the r products with the blocks in the header.
structure Encoded (src : Bool) (p k count dataNew : Nat) (skbs : List Skb) (start : Encoding) (r : Nat)
    (e : Encoding) : Prop where
  position : e.l = r * (p * p)
  packet : e.skbNew = {start.skbNew with mem := e.skbNew.mem}
  next : e.kernel.nextSkb = start.kernel.nextSkb
  log : e.kernel.log = start.kernel.log
  header : ∀ a < dataNew + 3, e.skbNew.mem a = start.skbNew.mem a
  payload : ∀ t < count, ∀ i < p, bytes e.skbNew.mem (dataNew + (p * p * k + 3) + (t * p + i)) =
    bytes start.skbNew.mem (dataNew + (p * p * k + 3) + (t * p + i)) + ∑ l ∈ range r, ∑ j ∈ range p,
      bytes e.skbNew.mem (dataNew + 3 + l * (p * p) + (i * p + j)) *
        bytes (codingByte src (skbs.getD l default)) (t * p + j)

theorem encodeOne_next (positive : 0 < p) (small : r < k) (here : skbs.getD r default = skb)
    (encoded : Encoded src p k ((codingLen + p - 1) / p) (start.skbNew.data + etherHeadLen) skbs start r e) :
    ∃ after, encodeOne src p codingLen (p * p * k + 3) skb e = some after ∧
      Encoded src p k ((codingLen + p - 1) / p) (start.skbNew.data + etherHeadLen) skbs start (r + 1) after := by
  have data : e.skbNew.data = start.skbNew.data := by rw [encoded.packet]
  obtain ⟨position,keeps,block⟩ := draw_block e (start.skbNew.data + etherHeadLen) p
  simp only [encodeOne,forStep_ends positive,data]
  generalize forRange 0 p (fun i e => forRange 0 p (fun j e =>
    drawCoefficient (start.skbNew.data + etherHeadLen) i j e) e) e = drawn at *
  generalize start.skbNew.data + etherHeadLen = dataNew at *
  obtain ⟨sums,frame⟩ := addBlocks skb (skb.data + if src then etherHeadLen else 0) p drawn.coefficient
    (dataNew + (p * p * k + 3)) ((codingLen + p - 1) / p) drawn.skbNew.mem
  refine ⟨_,rfl,?_⟩
  generalize forRange 0 ((codingLen + p - 1) / p) (fun t mem =>
    calData (fun o => skb.mem (skb.data + (if src then etherHeadLen else 0) + t * p + o)) p drawn.coefficient
      (dataNew + (p * p * k + 3) + t * p) mem) drawn.skbNew.mem = mem at *
  have stored : (r + 1) * (p * p) ≤ p * p * k := by
    calc (r + 1) * (p * p) ≤ k * (p * p) := Nat.mul_le_mul_right _ small
      _ = p * p * k := Nat.mul_comm _ _
  have advance : (r + 1) * (p * p) = r * (p * p) + p * p := by ring
  refine ⟨?_,?_,?_,?_,?_,?_⟩
  · rw [position,encoded.position,advance]
  · rw [keeps.packet,encoded.packet]
  · exact keeps.next.trans encoded.next
  · exact keeps.log.trans encoded.log
  · intro a before
    dsimp only
    rw [frame a (by omega),keeps.frame a (by omega)]
    exact encoded.header a before
  intro t inside i row
  have old : bytes drawn.skbNew.mem (dataNew + (p * p * k + 3) + (t * p + i)) =
      bytes e.skbNew.mem (dataNew + (p * p * k + 3) + (t * p + i)) := by
    simp only [bytes]
    rw [keeps.frame _ (.inr (by rw [position,encoded.position]; omega))]
  rw [sums t inside i row,old,encoded.payload t inside i row,sum_range_succ,add_assoc]
  congr 2
  · refine sum_congr rfl fun l member => sum_congr rfl fun j column => ?_
    have earlier := mem_range.mp member
    have slot := position_lt row (mem_range.mp column)
    have bound : l * (p * p) + p * p ≤ r * (p * p) := by
      calc l * (p * p) + p * p = (l + 1) * (p * p) := by ring
        _ ≤ r * (p * p) := Nat.mul_le_mul_right _ earlier
    congr 1
    simp only [bytes]
    rw [frame _ (.inl (by omega)),keeps.frame _ (.inl (by rw [encoded.position]; omega))]
  · refine sum_congr rfl fun j column => ?_
    have slot := position_lt row (mem_range.mp column)
    have coefficient := block i j (mem_range.mp column) slot
    rw [encoded.position] at coefficient
    simp only [bytes,coefficient,codingByte,here]
    rw [frame _ (.inl (by omega))]
    congr 3
    omega

theorem clear_apply (a n b : Nat) (mem : Nat → UInt8) :
    forRange 0 n (fun i mem => update mem (a + i) 0) mem b = if a ≤ b ∧ b < a + n then 0 else mem b := by
  refine forRange_rule (fun i (after : Nat → UInt8) => ∀ b, after b = if a ≤ b ∧ b < a + i then 0 else mem b)
    (Nat.zero_le n) ?_ ?_ b
  · intro b
    rw [if_neg (by omega)]
  · intro i _ _ _ cleared b
    by_cases here : b = a + i
    · subst b
      rw [update_self,if_pos (by omega)]
    · rw [update_of_ne here,cleared]
      congr 1
      exact propext (by omega)

theorem mncHeader_fields (mem : Nat → UInt8) (dataNew : Nat) (kp id third : UInt8) (room : 2 ≤ dataNew) :
    mncHeader mem dataNew kp id third dataNew = kp ∧ mncHeader mem dataNew kp id third (dataNew + 1) = id ∧
      mncHeader mem dataNew kp id third (dataNew + 2) = third ∧
      mncHeader mem dataNew kp id third (dataNew - 2) = 0x08 ∧ mncHeader mem dataNew kp id third (dataNew - 1) = 0x10 := by
  have two : dataNew - 2 ≠ dataNew - 1 := by omega
  have far : ∀ n, dataNew + n ≠ dataNew - 2 ∧ dataNew + n ≠ dataNew - 1 := fun n => by omega
  have near := far 0
  rw [Nat.add_zero] at near
  simp [mncHeader,two,far,near]

theorem mncHeader_frame {id : UInt8} (mem : Nat → UInt8) (outside : a + 2 < dataNew ∨ dataNew + 2 < a) :
    mncHeader mem dataNew kp id third a = mem a := by
  unfold mncHeader
  iterate 5 rw [update_of_ne (by omega)]

theorem prepare_fields (src : Bool) (p k : Nat) (id : UInt8) (s : Skb) (room : if src then etherHeadLen ≤ s.len else etherHeadLen ≤ s.data) :
    let after := prepareSkbNew src p k id s
    let codingLen := if src then s.len - etherHeadLen else s.len
    after.id = s.id ∧ after.len = etherHeadLen + (p * p * k + 3) + codingLen ∧
      after.mem (after.data + etherHeadLen) = kpByte k p ∧ after.mem (after.data + etherHeadLen + 1) = id ∧
      after.mem (after.data + etherHeadLen + 2) = (if src then 0xfc else 0xfd) ∧
      ∀ o < codingLen, after.mem (after.data + etherHeadLen + (p * p * k + 3) + o) = 0 := by
  have longer : ∀ a b : Nat, b ≤ a → subU32 a b = a - b := fun a b bound => if_pos bound
  cases src with
  | true =>
    simp only [if_true] at room
    obtain ⟨first,second,third,_,_⟩ := mncHeader_fields (forRange 0 (s.len + (p * p * k + 3) - etherHeadLen)
      (fun i mem => update mem (s.data + etherHeadLen + i) 0) s.mem) (s.data + etherHeadLen) (kpByte k p) id
      0xfc (by simp [etherHeadLen])
    simp only [prepareSkbNew,if_true,skbSetTransportHeader,skbSetNetworkHeader,skbPut,
      longer _ _ (show etherHeadLen ≤ s.len + (p * p * k + 3) by omega)]
    refine ⟨trivial,by omega,first,second,third,?_⟩
    intro o _
    rw [mncHeader_frame _ (by omega),clear_apply,if_pos (by omega)]
  | false =>
    simp only [Bool.false_eq_true,if_false] at room
    have back : s.data - etherHeadLen + etherHeadLen = s.data := by omega
    obtain ⟨first,second,third,_,_⟩ := mncHeader_fields (forRange 0
      (s.len + (p * p * k + 3) + etherHeadLen - etherHeadLen) (fun i mem => update mem (s.data + i) 0) s.mem)
      s.data (kpByte k p) id 0xfd (by have : 14 ≤ s.data := room; omega)
    simp only [prepareSkbNew,Bool.false_eq_true,if_false,skbSetMacHeader,skbSetNetworkHeader,skbPut,skbPush,back,
      longer _ _ (show etherHeadLen ≤ s.len + (p * p * k + 3) + etherHeadLen by omega)]
    refine ⟨trivial,by omega,first,second,third,?_⟩
    intro o _
    rw [mncHeader_frame _ (by omega),clear_apply,if_pos (by omega)]

def generationOf (src : Bool) (skbs : List Skb) (p : Nat) (id : UInt8) : Generation where
  k := skbs.length
  p := p
  len := if src then (skbs.getD 0 default).len - etherHeadLen else (skbs.getD 0 default).len
  eid := id
  originals i := codingByte src (skbs.getD i default)

-- Packets of one length, with room for an Ethernet header.
structure Encodable (src : Bool) (skbs : List Skb) : Prop where
  nonempty : skbs ≠ []
  count : skbs.length < 0x1000000
  same : ∀ s ∈ skbs, s.len = (skbs.getD 0 default).len
  room : ∀ s ∈ skbs, if src then etherHeadLen ≤ s.len else etherHeadLen ≤ s.data

theorem generationOf_len (p : Nat) (id : UInt8) (encodable : Encodable src (first :: rest)) :
    (generationOf src (first :: rest) p id).len = if src then subU32 first.len etherHeadLen else first.len := by
  have room := encodable.room first (by simp)
  cases src with
  | false => rfl
  | true =>
    simp only [if_true] at room
    simp [generationOf,subU32,room]

theorem encodeAll (src : Bool) (codingLen : Nat) (positive : 0 < p) (start : Encoding) (position : start.l = 0) (skbs : List Skb)
    (same : ∀ s ∈ skbs, len = s.len) :
    ∃ e, skbs.foldlM (fun e skb => if len ≠ skb.len then none
        else encodeOne src p codingLen (p * p * skbs.length + 3) skb e) start = some e ∧
      Encoded src p skbs.length ((codingLen + p - 1) / p) (start.skbNew.data + etherHeadLen) skbs start skbs.length e := by
  refine foldlM_returns _ skbs ⟨by simp [position],rfl,rfl,rfl,fun _ _ => rfl,by simp⟩ ?_
  intro i h e encoded
  rw [if_neg (not_not.mpr (same _ (List.getElem_mem h)))]
  exact encodeOne_next positive h (by simp [List.getD_eq_getElem?_getD,h]) encoded

theorem makeSkbNew_coded (par : TrParam) (encodable : Encodable par.src skbs) (positive : 0 < p) (small : p < 0x100)
    (id : UInt8) (kernel : Kernel) :
    ∃ skb after, makeSkbNew par skbs p id kernel = some (some skb,after) ∧ skb.id = kernel.nextSkb ∧
      after.nextSkb = kernel.nextSkb + 1 ∧ after.log = kernel.log ∧ etherHeadLen ≤ skb.len ∧
      (generationOf par.src skbs p id).Coded (skbPull skb etherHeadLen) := by
  cases skbs with
  | nil => exact absurd rfl encodable.nonempty
  | cons first rest =>
    have codingLen := generationOf_len p id encodable
    have exact_len : (generationOf par.src (first :: rest) p id).len =
      if par.src then first.len - etherHeadLen else first.len := rfl
    simp only [makeSkbNew,ge_iff_le,Nat.not_le.mpr encodable.count,Nat.not_le.mpr small,if_false,skbCopy]
    rw [← codingLen]
    obtain ⟨same_id,length,kp,eid,third,cleared⟩ := prepare_fields par.src p (first :: rest).length id
      {first with id := kernel.nextSkb} (encodable.room first (by simp))
    rw [← exact_len] at length cleared
    generalize prepareSkbNew par.src p (first :: rest).length id {first with id := kernel.nextSkb} = skbNew at *
    have lengths : ∀ s ∈ first :: rest, first.len = s.len := fun s member => (encodable.same s member).symm
    obtain ⟨e,ran,encoded⟩ := encodeAll par.src (generationOf par.src (first :: rest) p id).len positive
      ⟨skbNew,0,fun _ _ => 0,{kernel with nextSkb := kernel.nextSkb + 1}⟩ rfl (first :: rest) lengths
    simp only [ran,Option.map_some]
    have packet := encoded.packet
    have data : e.skbNew.data = skbNew.data := by rw [packet]
    have len : e.skbNew.len = skbNew.len := by rw [packet]
    have pulled : ∀ o, (skbPull e.skbNew etherHeadLen).byte o = e.skbNew.mem (skbNew.data + etherHeadLen + o) := by
      intro o
      rw [skbPull,if_neg (by omega),Skb.byte,data]
    have header : ∀ a < skbNew.data + etherHeadLen + 3, e.skbNew.mem a = skbNew.mem a := encoded.header
    refine ⟨e.skbNew,e.kernel,rfl,?_,encoded.next,encoded.log,by omega,⟨?_,?_,?_,?_,?_⟩⟩
    · rw [packet]; exact same_id
    · rw [pulled 0,header _ (by omega)]; exact kp
    · rw [pulled 1,header _ (by omega)]; exact eid
    · rw [pulled 2,header _ (by omega),third]
      split <;> decide
    · rw [skbPull,if_neg (by omega)]
      simp only [len,length,Generation.headSize,generationOf]
      omega
    intro o inside
    obtain ⟨block,parts,row⟩ := whole_block positive inside
    have low : o < (generationOf par.src (first :: rest) p id).len :=
      Nat.lt_of_lt_of_le inside (Nat.mul_div_le _ p)
    have sum := encoded.payload (o / p) block (o % p) row
    rw [parts,show bytes skbNew.mem (skbNew.data + etherHeadLen + (p * p * (first :: rest).length + 3) + o) = 0 from
      GF.ext (cleared o low),zero_add] at sum
    have address : (generationOf par.src (first :: rest) p id).headSize + o = p * p * (first :: rest).length + 3 + o := by
      simp only [Generation.headSize,generationOf]
      omega
    simp only [Generation.combination,bytes,pulled,address] at sum ⊢
    rw [← Nat.add_assoc,sum]
    refine sum_congr rfl fun l _ => sum_congr rfl fun j _ => ?_
    congr 3
    simp only [generationOf]
    omega

theorem enqueue_rounds (k p : Nat) (id : UInt8) (len : Nat) (skbs : List Skb) (same : ∀ s ∈ skbs, len = s.len) (e : Enqueued) :
    skbs.foldlM (fun (e : Enqueued) skb =>
        if len ≠ skb.len then none
        else
          let (skbNewSys,kernel) := skbCopy skb e.kernel
          some (⟨e.result ++ [systematic k p id e.j skbNewSys],e.j + 1,kernel⟩ : Enqueued)) e =
      some ⟨e.result ++ skbs.mapIdx (fun i s => systematic k p id (e.j + i) {s with id := e.kernel.nextSkb + i}),
        e.j + skbs.length,{e.kernel with nextSkb := e.kernel.nextSkb + skbs.length}⟩ := by
  induction skbs generalizing e with
  | nil => simp
  | cons first rest ih =>
    rw [List.foldlM_cons,if_neg (not_not.mpr (same first (by simp)))]
    simp only [skbCopy,Option.bind_eq_bind,Option.bind_some]
    have next := ih (fun s member => same s (List.mem_cons_of_mem _ member))
    simp only [skbCopy] at next
    rw [next]
    simp only [List.mapIdx_cons,List.length_cons,List.append_assoc,List.singleton_append,Nat.add_zero]
    have shift : ∀ a i : Nat, a + 1 + i = a + (i + 1) := by omega
    simp only [shift]

theorem enqueueSkbOriginal_eq (nonempty : skbs ≠ []) (count : skbs.length < 0x1000000) (small : p < 0x100)
    (same : ∀ s ∈ skbs, s.len = (skbs.getD 0 default).len) (id : UInt8) (result : List Skb) (kernel : Kernel) :
    enqueueSkbOriginal skbs p id result kernel =
      some (result ++ skbs.mapIdx (fun i s => systematic skbs.length p id i {s with id := kernel.nextSkb + i}),
        {kernel with nextSkb := kernel.nextSkb + skbs.length}) := by
  cases skbs with
  | nil => exact absurd rfl nonempty
  | cons first rest =>
    have lengths : ∀ s ∈ first :: rest, first.len = s.len := fun s member => (same s member).symm
    simp only [enqueueSkbOriginal,ge_iff_le,Nat.not_le.mpr count,Nat.not_le.mpr small,if_false]
    rw [enqueue_rounds (first :: rest).length p id first.len (first :: rest) lengths]
    simp

theorem systematic_packet (encodable : Encodable true skbs) (p : Nat) (id : UInt8) (i : Nat) (small : i < skbs.length)
    (room : 3 ≤ (skbs.getD i default).data) (buffer : Nat) :
    (generationOf true skbs p id).Systematic i
      (skbPull (systematic skbs.length p id i {skbs.getD i default with id := buffer}) etherHeadLen) := by
  have member : skbs.getD i default ∈ skbs := by
    simp [List.getD_eq_getElem?_getD,small]
  have length := encodable.same _ member
  have long : etherHeadLen ≤ (skbs.getD i default).len := by simpa using encodable.room _ member
  generalize here : skbs.getD i default = s at *
  have back : s.data - 3 + etherHeadLen = s.data + 11 := by simp only [etherHeadLen]; omega
  have shape : ∃ mem,(systematic skbs.length p id i {s with id := buffer}).data = s.data - 3 ∧
      (systematic skbs.length p id i {s with id := buffer}).len = s.len + 3 ∧
      (systematic skbs.length p id i {s with id := buffer}).mem =
        mncHeader mem (s.data + 11) (kpByte skbs.length p) id (UInt8.ofNat (i <<< 2)) ∧
      ∀ a, s.data + 11 ≤ a → mem a = s.mem a := by
    refine ⟨forRange 0 etherHeadLen (fun i mem =>
      update mem (s.data - 3 + i) (mem (s.data - 3 + i + 3))) s.mem,rfl,rfl,?_,?_⟩
    · simp only [systematic,skbSetTransportHeader,skbSetNetworkHeader,skbPush,back]
    intro a _
    refine forRange_keeps (fun mem : Nat → UInt8 => mem a = s.mem a) rfl ?_
    intro j mem _ bound kept
    rw [update_of_ne (by simp only [etherHeadLen] at bound; omega)]
    exact kept
  obtain ⟨mem,data,len,bytes_eq,frame⟩ := shape
  generalize systematic skbs.length p id i {s with id := buffer} = sent at *
  obtain ⟨first,second,third,_,_⟩ := mncHeader_fields mem (s.data + 11) (kpByte skbs.length p) id
    (UInt8.ofNat (i <<< 2)) (by omega)
  have pulled : ∀ o, (skbPull sent etherHeadLen).byte o =
      mncHeader mem (s.data + 11) (kpByte skbs.length p) id (UInt8.ofNat (i <<< 2)) (s.data + 11 + o) := by
    intro o
    rw [skbPull,if_neg (by omega),Skb.byte,data,back,bytes_eq]
  refine ⟨small,(pulled 0).trans first,(pulled 1).trans second,(pulled 2).trans third,?_,?_⟩
  · rw [skbPull,if_neg (by omega)]
    simp only [len,generationOf,if_true,← length]
    omega
  · intro o _
    rw [pulled,mncHeader_frame _ (by omega),frame _ (by omega)]
    simp only [generationOf,here,codingByte,if_true,etherHeadLen]
    congr 1
    omega

end MncTx
end Mac80211

import Mathlib.Data.List.Basic
import Mathlib.Algebra.Ring.Nat
import Mathlib.Algebra.Ring.Int.Defs

namespace Mac80211

def ethAlen : Nat := 6
def etherHeadLen : Nat := 14

abbrev EthAddr := Vector UInt8 6

def macAddr (a b c d e f : UInt8) : EthAddr := #v[a,b,c,d,e,f]

def byteAt (bytes : Vector UInt8 6) (i : Nat) : UInt8 := bytes.toList.getD i 0

abbrev firstRcv (rcvNum : Vector UInt32 8) : UInt32 := rcvNum[0]

structure NetDevice where
  devAddr : EthAddr

-- The memory starts at skb->head; data and the headers are offsets. id stands for the pointer. What lies
-- behind the last byte is part of mem; tailroom counts it up to skb->end.
structure Skb where
  id : Nat
  mem : Nat → UInt8
  data : Nat
  len : Nat
  macHeader : Nat
  networkHeader : Nat
  transportHeader : Nat
  protocol : UInt16
  priority : UInt32
  dev : NetDevice
  tailroom : Nat

def subU32 (a b : Nat) : Nat := if b ≤ a then a - b else a + 2 ^ 32 - b

namespace Skb

def byte (s : Skb) (i : Nat) : UInt8 := s.mem (s.data + i)
def store (s : Skb) (i : Nat) (v : UInt8) : Skb := {s with mem := Function.update s.mem (s.data + i) v}

end Skb

instance : Inhabited Skb := ⟨⟨0,fun _ => 0,0,0,0,0,0,0,0,⟨Vector.replicate 6 0⟩,0⟩⟩

def skbPut (s : Skb) (n : Nat) : Skb := {s with len := s.len + n,tailroom := s.tailroom - n}
def skbPush (s : Skb) (n : Nat) : Skb := {s with data := s.data - n,len := s.len + n}
def skbPull (s : Skb) (n : Nat) : Skb := if n > s.len then s else {s with data := s.data + n,len := s.len - n}
def skbTrim (s : Skb) (n : Nat) : Skb := if s.len > n then {s with len := n,tailroom := s.tailroom + (s.len - n)} else s

def skbSetMacHeader (s : Skb) (offset : Int) : Skb := {s with macHeader := (s.data + offset).toNat}
def skbSetNetworkHeader (s : Skb) (offset : Int) : Skb := {s with networkHeader := (s.data + offset).toNat}
def skbSetTransportHeader (s : Skb) (offset : Int) : Skb := {s with transportHeader := (s.data + offset).toNat}

-- With the Ethernet header taken off.
structure Arrives (sent skb : Skb) : Prop where
  length : skb.len + etherHeadLen = sent.len
  content : ∀ o < skb.len, skb.byte o = sent.byte (etherHeadLen + o)

-- What is passed to the stack carries the original it holds, which the code does not keep.
inductive Fate where
  | received (skb : Skb) (original : Option (UInt8 × Nat))
  | sent (skb : Skb) (dev : NetDevice)
  | control (skb : Skb)
  | freed (skb : Skb)

-- With the source of get_random_bytes. Allocation does not fail.
structure Kernel where
  nextSkb : Nat
  random : Nat → UInt8
  drawn : Nat
  log : List Fate

-- none: a loop that never ends, a null pointer or a write outside of an array.
abbrev Returns (α : Type) := Option α

def skbCopy (s : Skb) (kernel : Kernel) : Skb × Kernel :=
  ({s with id := kernel.nextSkb},{kernel with nextSkb := kernel.nextSkb + 1})

def Kernel.record (kernel : Kernel) (fate : Fate) : Kernel := {kernel with log := kernel.log ++ [fate]}

def netifReceiveSkb (s : Skb) (original : Option (UInt8 × Nat)) (kernel : Kernel) : Kernel :=
  kernel.record (.received s original)
def ieee80211SubifStartXmit (s : Skb) (dev : NetDevice) (kernel : Kernel) : Kernel := kernel.record (.sent s dev)
def kfreeSkb (s : Option Skb) (kernel : Kernel) : Kernel :=
  match s with
  | none => kernel
  | some s => kernel.record (.freed s)
def skbQueuePurge (skbs : List Skb) (kernel : Kernel) : Kernel :=
  skbs.foldl (fun kernel s => kfreeSkb (some s) kernel) kernel

def getRandomByte (kernel : Kernel) : UInt8 × Kernel :=
  (kernel.random kernel.drawn,{kernel with drawn := kernel.drawn + 1})

def Fate.original : Fate → Option (UInt8 × Nat)
  | .received _ original => original
  | .sent .. => none
  | .control _ => none
  | .freed _ => none

def handed (log : List Fate) : List (UInt8 × Nat) := log.filterMap Fate.original

def Fate.wire : Fate → Option Skb
  | .received .. => none
  | .sent s _ => some s
  | .control _ => none
  | .freed _ => none

def transmitted (log : List Fate) : List Skb := log.filterMap Fate.wire

def Fate.skb : Fate → Skb
  | .received s _ => s
  | .sent s _ => s
  | .control s => s
  | .freed s => s

theorem subU32_small (small : a < 2 ^ 32) : subU32 a b < 2 ^ 32 := by
  unfold subU32
  split <;> omega

namespace Skb

@[simp] theorem byte_store_same (s : Skb) (i : Nat) (v : UInt8) : (s.store i v).byte i = v := by
  simp [byte,store]

theorem byte_store (s : Skb) (i j : Nat) (v : UInt8) : (s.store i v).byte j = if j = i then v else s.byte j := by
  by_cases same : j = i
  · subst j; simp
  · simp [byte,store,same]

@[simp] theorem store_len (s : Skb) (i : Nat) (v : UInt8) : (s.store i v).len = s.len := rfl

end Skb

@[simp] theorem skbTrim_byte (s : Skb) (n i : Nat) : (skbTrim s n).byte i = s.byte i := by
  unfold skbTrim
  split <;> rfl

@[simp] theorem skbTrim_data (s : Skb) (n : Nat) : (skbTrim s n).data = s.data := by
  unfold skbTrim
  split <;> rfl

theorem skbTrim_len (s : Skb) (bound : n ≤ s.len) : (skbTrim s n).len = n := by
  unfold skbTrim
  split
  · rfl
  · omega

theorem skbPull_len (s : Skb) (bound : n ≤ s.len) : (skbPull s n).len = s.len - n := by
  rw [skbPull,if_neg (by omega)]

theorem skbPull_byte (s : Skb) (bound : n ≤ s.len) (i : Nat) : (skbPull s n).byte i = s.byte (n + i) := by
  rw [skbPull,if_neg (by omega),Skb.byte,Skb.byte,Nat.add_assoc]

theorem pull_arrives (long : etherHeadLen ≤ wire.len) : Arrives wire (skbPull wire etherHeadLen) := by
  refine ⟨?_,fun o _ => skbPull_byte wire long o⟩
  rw [skbPull_len wire long]
  omega

theorem Arrives.pulled (arrives : Arrives wire skb) :
    skb.len = (skbPull wire etherHeadLen).len ∧ ∀ o < skb.len, skb.byte o = (skbPull wire etherHeadLen).byte o := by
  have long := arrives.length
  have room : etherHeadLen ≤ wire.len := by omega
  refine ⟨?_,fun o inside => ?_⟩
  · rw [skbPull_len wire room]
    omega
  · rw [skbPull_byte wire room,arrives.content o inside]

theorem skbQueuePurge_log (skbs : List Skb) (kernel : Kernel) :
    skbQueuePurge skbs kernel = {kernel with log := kernel.log ++ skbs.map .freed} := by
  induction skbs generalizing kernel with
  | nil => simp [skbQueuePurge]
  | cons s rest ih =>
    have next := ih (kfreeSkb (some s) kernel)
    simp only [skbQueuePurge,List.foldl_cons] at next ⊢
    rw [next]
    simp [kfreeSkb,Kernel.record]

@[simp] theorem handed_append (xs ys : List Fate) : handed (xs ++ ys) = handed xs ++ handed ys := List.filterMap_append

@[simp] theorem handed_freed (skbs : List Skb) : handed (skbs.map .freed) = [] := by
  simp [handed,Fate.original]

@[simp] theorem handed_singleton_freed (s : Skb) : handed [.freed s] = [] := rfl

@[simp] theorem handed_sent (skbs : List Skb) (dev : NetDevice) : handed (skbs.map fun s => .sent s dev) = [] := by
  simp [handed,Fate.original]

@[simp] theorem transmitted_append (xs ys : List Fate) : transmitted (xs ++ ys) = transmitted xs ++ transmitted ys :=
  List.filterMap_append

@[simp] theorem transmitted_freed (skbs : List Skb) : transmitted (skbs.map .freed) = [] := by
  simp [transmitted,Fate.wire]

@[simp] theorem transmitted_sent (skbs : List Skb) (dev : NetDevice) :
    transmitted (skbs.map fun s => .sent s dev) = skbs := by
  simp [transmitted,List.filterMap_map,Function.comp_def,Fate.wire]

@[simp] theorem transmitted_purge (skbs : List Skb) (kernel : Kernel) :
    transmitted (skbQueuePurge skbs kernel).log = transmitted kernel.log := by
  simp [skbQueuePurge_log]

end Mac80211

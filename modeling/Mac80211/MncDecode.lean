import Mac80211.LuFac
import Mac80211.SkBuff

namespace Mac80211.MncRx
open Gf Loops
open Function (update)

-- The index field of a received packet; 0x3f marks a coded one.
def mindex (s : Skb) : Nat := (s.byte 2 >>> 2).toNat

-- And the queue they are filled from.
structure Slots where
  skbs : List Skb
  isSys : Nat → Bool
  skb : Nat → Option Skb

def Slots.packet (s : Slots) (i : Nat) : Skb := (s.skb i).getD default

def occupied (k : Nat) (skb : Nat → Option Skb) : List Skb := (List.range k).filterMap skb

-- An empty queue gives a null pointer, a repeated index the queue and the packet to free.
inductive Stop where
  | null
  | duplicate (skbs : List Skb) (extra : Skb)

def placeSystematic (k : Nat) (s : Slots) : Except Stop Slots :=
  match s.skbs with
  | [] => .error .null
  | skbTemp :: rest =>
    if mindex skbTemp ≠ 0x3f then
      if s.isSys (mindex skbTemp) then .error (.duplicate (rest ++ occupied k s.skb) skbTemp)
      else .ok {
        skbs := rest
        isSys := update s.isSys (mindex skbTemp) true
        skb := update s.skb (mindex skbTemp) (some skbTemp) }
    else .ok {s with skbs := rest ++ [skbTemp]}

def fillCoded (i : Nat) (s : Slots) : Slots :=
  if s.isSys i then s else {s with skbs := s.skbs.tail,skb := update s.skb i s.skbs.head?}

-- Row r is mrow + m with mrow = i*p, column c is j + n with j a multiple of p.
def coefficient (p : Nat) (isSys : Nat → Bool) (skb : Nat → Skb) (r c : Nat) : UInt8 :=
  let i := r / p
  let m := r % p
  let j := c / p * p
  let n := c % p
  if isSys i then (if c = r then 1 else 0) else (skb i).byte (3 + j * p + m * p + n)

structure Rank where
  rank : Nat
  skb : Nat → Option Skb
  kernel : Kernel

def checkRank (p : Nat) (lu : LuFac.State) (i : Nat) (s : Rank) : Rank :=
  if lu.u i i = 0 then
    let d := lu.pivot i / p
    ⟨s.rank - 1,update s.skb d none,kfreeSkb (s.skb d) s.kernel⟩
  else s

-- x keeps its content from block to block.
structure Substitution where
  x : Nat → UInt8
  newskb : Nat → Skb

def fillB (k p mncheadsize : Nat) (isSys : Nat → Bool) (skb : Nat → Skb) (i : Nat) : Nat → UInt8 :=
  forRange 0 k (fun j b => forRange 0 p (fun l b =>
    update b (j * p + l) ((skb j).byte ((if isSys j then 3 else mncheadsize) + i + l))) b) fun _ => 0

def solveL (msize : Nat) (L : Nat → Nat → UInt8) (b : Nat → UInt8) : Nat → UInt8 :=
  forRange 0 msize (fun j y => forRange 0 j (fun l y =>
    update y j (gsub (y j) (gmul (L j l) (y l)))) (update y j (b j))) fun _ => 0

def solveU (msize : Nat) (U : Nat → Nat → UInt8) (y x : Nat → UInt8) : Nat → UInt8 :=
  forRange 0 msize (fun j x =>
    let n := msize - 1 - j
    if U n n = 0 then x
    else
      let x := forRange (n + 1) msize (fun l x =>
        update x n (gsub (x n) (gmul (U n l) (x l)))) (update x n (y n))
      update x n (gdiv (x n) (U n n))) x

def putX (k p i : Nat) (x : Nat → UInt8) (newskb : Nat → Skb) : Nat → Skb :=
  forRange 0 k (fun j newskb => forRange 0 p (fun l newskb =>
    update newskb j ((newskb j).store (i + l) (x (j * p + l)))) newskb) newskb

def substiBlock (msize k p : Nat) (U L : Nat → Nat → UInt8) (pivot : Nat → Nat) (skb : Nat → Skb) (mncheadsize : Nat)
    (isSys : Nat → Bool) (i : Nat) (s : Substitution) : Substitution :=
  let t := fillB k p mncheadsize isSys skb i
  let y := solveL msize L fun j => t (pivot j)
  let x := solveU msize U y s.x
  ⟨x,putX k p i x s.newskb⟩

def skbSubsti (msize k p : Nat) (U L : Nat → Nat → UInt8) (pivot : Nat → Nat) (skb newskb : Nat → Skb)
    (len mncheadsize : Nat) (isSys : Nat → Bool) : Returns (Nat → Skb) :=
  (forStep len p (substiBlock msize k p U L pivot skb mncheadsize isSys) ⟨fun _ => 0,newskb⟩).map (·.newskb)

def copySlot (skb : Nat → Skb) (i : Nat) (s : (Nat → Skb) × Kernel) : (Nat → Skb) × Kernel :=
  let (copy,kernel) := skbCopy (skb i) s.2
  (update s.1 i copy,kernel)

def outputSlot (len : Nat) (isSys : Nat → Bool) (newskb : Nat → Skb) (i : Nat) (s : List (Nat × Skb) × Kernel) :
    List (Nat × Skb) × Kernel :=
  if isSys i then (s.1,kfreeSkb (some (newskb i)) s.2)
  else (s.1 ++ [(i,skbTrim (newskb i) len)],s.2)

structure Decoded where
  ok : Bool
  skbs : List Skb
  newskbs : List (Nat × Skb)
  kernel : Kernel

-- From the coefficient matrix on: skb[k] is full.
def solveSlots (k p : Nat) (slots : Slots) (kernel : Kernel) : Returns Decoded :=
  let msize := k * p
  let mncheadsize := 3 + p * p * k
  let skb := slots.packet
  let lu := LuFac.luFac msize msize ⟨coefficient p slots.isSys skb,fun _ _ => 0,fun _ _ => 0,id⟩
  let rank := forRange 0 msize (checkRank p lu) ⟨msize,slots.skb,kernel⟩
  if rank.rank ≠ msize then some ⟨false,slots.skbs ++ occupied k rank.skb,[],rank.kernel⟩
  else
    let (newskb,kernel) := forRange 0 k (copySlot skb) (fun _ => default,rank.kernel)
    let len := subU32 (newskb 0).len (if slots.isSys 0 then 3 else mncheadsize)
    match skbSubsti msize k p lu.u lu.l lu.pivot skb newskb len mncheadsize slots.isSys with
    | none => none
    | some newskb =>
      let (newskbs,kernel) := forRange 0 k (outputSlot len slots.isSys newskb) ([],kernel)
      some ⟨true,slots.skbs,newskbs,kernel⟩

def skbsDecoding (skbs : List Skb) (kp : UInt8) (kernel : Kernel) : Returns Decoded :=
  let k := (kp >>> 2).toNat
  let p := (kp &&& 0x3).toNat
  match forTry 0 k (fun _ => placeSystematic k) ⟨skbs,fun _ => false,fun _ => none⟩ with
  | .error .null => none
  | .error (.duplicate skbs extra) => some ⟨false,skbs,[],kfreeSkb (some extra) kernel⟩
  | .ok slots =>
    let slots := forRange 0 k fillCoded slots
    if (List.range k).any fun i => (slots.skb i).isNone then none
    else solveSlots k p slots kernel

end Mac80211.MncRx

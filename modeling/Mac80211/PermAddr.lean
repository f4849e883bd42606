import Mac80211.BitField
import Mathlib.Data.Nat.Count
import Mathlib.Data.Nat.Size

namespace Mac80211.PermAddr

inductive IfType where
  | unspecified | adhoc | station | ap | apVlan | wds | monitor | meshPoint | p2pClient | p2pGo | p2pDevice | ocb
deriving DecidableEq

structure Addr where
  m0 : UInt8
  m1 : UInt8
  m2 : UInt8
  m3 : UInt8
  m4 : UInt8
  m5 : UInt8
deriving DecidableEq

def Addr.u64 (m : Addr) : UInt64 :=
  m.m0.toUInt64 <<< 40 ||| m.m1.toUInt64 <<< 32 ||| m.m2.toUInt64 <<< 24 ||| m.m3.toUInt64 <<< 16 ||| m.m4.toUInt64 <<< 8 |||
    m.m5.toUInt64

def tmpAddr (addr : UInt64) : Addr :=
  ⟨(addr >>> 40).toUInt8,(addr >>> 32).toUInt8,(addr >>> 24).toUInt8,(addr >>> 16).toUInt8,(addr >>> 8).toUInt8,addr.toUInt8⟩

def isZeroEtherAddr (addr : Addr) : Bool := addr == ⟨0,0,0,0,0,0⟩

structure Sdata where
  type : IfType
  addr : Addr
  running : Bool

structure Local where
  permAddr : Addr
  addrMask : Addr
  addresses : List Addr
  p2pDevAddrForIntf : Bool
  interfaces : List Sdata

def Local.used (l : Local) (addr : Addr) : Bool := l.interfaces.any fun sdata => addr == sdata.addr

def ffs64 (v : UInt64) : Nat := (List.range 64).findIdx v.toNat.testBit
def hweight64 (v : UInt64) : Nat := Nat.count (fun i => v.toNat.testBit i) 64
def fls64 (v : UInt64) : Nat := v.toNat.size

def search (l : Local) (start mask inc : UInt64) : Nat → UInt64 → UInt64 → Option (Option Addr)
  | 0,_,_ => none
  | rounds + 1,val,addr =>
    let val := val + inc
    if !l.used (tmpAddr addr) then some (some (tmpAddr addr))
    else
      let addr := (start &&& ~~~mask) ||| (val &&& mask)
      if addr ≠ start then search l start mask inc rounds val addr else some none

def startAddr (l : Local) : Addr :=
  match l.interfaces.find? fun sdata => sdata.type != .monitor with
  | some sdata => sdata.addr
  | none => l.permAddr

def assignNewAddr (l : Local) : Option Addr :=
  let permAddr := (l.addresses.find? fun addr => !l.used addr).getD l.permAddr
  if isZeroEtherAddr l.addrMask then some permAddr
  else
    let mask := l.addrMask.u64
    if ffs64 mask + hweight64 mask ≠ fls64 mask then some permAddr
    else
      let start := (startAddr l).u64
      let inc := 1 <<< UInt64.ofNat (ffs64 mask)
      let val := start &&& mask
      let addr := (start &&& ~~~mask) ||| (val &&& mask)
      (search l start mask inc (2 ^ 48) val addr).map fun found => found.getD permAddr

-- Of a P2P device, taken over by an interface of this type.
def deviceAddr (l : Local) (type : IfType) : Option Addr :=
  if (type = .p2pClient ∨ type = .p2pGo) ∧ l.p2pDevAddrForIntf then
    (l.interfaces.find? fun sdata => sdata.type == .p2pDevice && sdata.running).map Sdata.addr
  else none

def ieee80211AssignPermAddr (l : Local) (type : IfType) : Option Addr :=
  if isZeroEtherAddr l.addrMask && l.addresses.length ≤ 1 then some l.permAddr
  else
    match type with
    | .monitor => some l.permAddr
    | .wds | .apVlan => some (((l.interfaces.find? fun sdata => sdata.type == .ap).map Sdata.addr).getD l.permAddr)
    | type =>
      match deviceAddr l type with
      | some addr => some addr
      | none => assignNewAddr l

def Default (l : Local) (type : IfType) : Prop :=
  type ≠ .monitor ∧ type ≠ .wds ∧ type ≠ .apVlan ∧ deviceAddr l type = none

-- The address k steps up from another one, around the bits of the mask.
def counted (start : Addr) (s w k : Nat) : Addr :=
  tmpAddr (UInt64.ofNat (BitField.set s w start.u64.toNat (BitField.get s w start.u64.toNat + k)))

def Masked (mask start addr : Addr) : Prop :=
  ∀ i, mask.u64.toNat.testBit i = false → addr.u64.toNat.testBit i = start.u64.toNat.testBit i

section bytes

theorem or_below (a : Nat) (small : b < 2 ^ i) : a * 2 ^ i ||| b = a * 2 ^ i + b := by
  rw [Nat.mul_comm,Nat.two_pow_add_eq_or_of_lt small]

theorem byte_shift (b : UInt8) (k : UInt64) (small : k.toNat ≤ 40) : (b.toUInt64 <<< k).toNat = b.toNat * 2 ^ k.toNat := by
  have byte : b.toNat < 2 ^ 8 := b.toNat_lt
  have power : 2 ^ k.toNat ≤ 2 ^ 40 := Nat.pow_le_pow_right (by decide) small
  have place : k.toNat % 64 = k.toNat := Nat.mod_eq_of_lt (by omega)
  have below : b.toNat * 2 ^ k.toNat < 2 ^ 64 := by
    calc b.toNat * 2 ^ k.toNat ≤ b.toNat * 2 ^ 40 := Nat.mul_le_mul_left _ power
      _ < 2 ^ 64 := by omega
  rw [UInt64.toNat_shiftLeft,place,UInt8.toNat_toUInt64,Nat.shiftLeft_eq,Nat.mod_eq_of_lt below]

theorem u64_toNat (m : Addr) : m.u64.toNat =
    m.m0.toNat * 2 ^ 40 + m.m1.toNat * 2 ^ 32 + m.m2.toNat * 2 ^ 24 + m.m3.toNat * 2 ^ 16 + m.m4.toNat * 2 ^ 8 + m.m5.toNat := by
  obtain ⟨m0,m1,m2,m3,m4,m5⟩ := m
  have := m1.toNat_lt
  have := m2.toNat_lt
  have := m3.toNat_lt
  have := m4.toNat_lt
  have := m5.toNat_lt
  have first : m0.toNat * 2 ^ 40 ||| m1.toNat * 2 ^ 32 = (m0.toNat * 2 ^ 8 + m1.toNat) * 2 ^ 32 := by
    rw [or_below _ (by omega)]
    omega
  have second : (m0.toNat * 2 ^ 8 + m1.toNat) * 2 ^ 32 ||| m2.toNat * 2 ^ 24 = ((m0.toNat * 2 ^ 8 + m1.toNat) * 2 ^ 8 + m2.toNat) * 2 ^ 24 := by
    rw [or_below _ (by omega)]
    omega
  have third (a : Nat) : a * 2 ^ 24 ||| m3.toNat * 2 ^ 16 = (a * 2 ^ 8 + m3.toNat) * 2 ^ 16 := by
    rw [or_below _ (by omega)]
    omega
  have fourth (a : Nat) : a * 2 ^ 16 ||| m4.toNat * 2 ^ 8 = (a * 2 ^ 8 + m4.toNat) * 2 ^ 8 := by
    rw [or_below _ (by omega)]
    omega
  have fifth (a : Nat) : a * 2 ^ 8 ||| m5.toNat = a * 2 ^ 8 + m5.toNat := or_below _ (by omega)
  simp only [Addr.u64,UInt64.toNat_or,UInt8.toNat_toUInt64]
  rw [byte_shift m0 40 (by decide),byte_shift m1 32 (by decide),byte_shift m2 24 (by decide),byte_shift m3 16 (by decide),
    byte_shift m4 8 (by decide)]
  change ((((m0.toNat * 2 ^ 40 ||| m1.toNat * 2 ^ 32) ||| m2.toNat * 2 ^ 24) ||| m3.toNat * 2 ^ 16) ||| m4.toNat * 2 ^ 8) ||| m5.toNat = _
  rw [first,second,third,fourth,fifth]
  omega

theorem u64_lt (m : Addr) : m.u64.toNat < 2 ^ 48 := by
  have := m.m0.toNat_lt
  have := m.m1.toNat_lt
  have := m.m2.toNat_lt
  have := m.m3.toNat_lt
  have := m.m4.toNat_lt
  have := m.m5.toNat_lt
  rw [u64_toNat]
  omega

theorem byte_at (v k : UInt64) (small : k.toNat < 64) : (v >>> k).toUInt8.toNat = v.toNat / 2 ^ k.toNat % 256 := by
  rw [UInt64.toNat_toUInt8,UInt64.toNat_shiftRight,Nat.mod_eq_of_lt small,Nat.shiftRight_eq_div_pow]

theorem tmpAddr_u64 (m : Addr) : tmpAddr m.u64 = m := by
  have value := u64_toNat m
  obtain ⟨m0,m1,m2,m3,m4,m5⟩ := m
  have := m0.toNat_lt
  have := m1.toNat_lt
  have := m2.toNat_lt
  have := m3.toNat_lt
  have := m4.toNat_lt
  have := m5.toNat_lt
  generalize (Addr.mk m0 m1 m2 m3 m4 m5).u64 = v at value
  dsimp only at value
  have byte (k : UInt64) (small : k.toNat < 64) (b : UInt8) (same : v.toNat / 2 ^ k.toNat % 256 = b.toNat) : (v >>> k).toUInt8 = b :=
    UInt8.toNat_inj.mp ((byte_at v k small).trans same)
  have last : v.toUInt8 = m5 := UInt8.toNat_inj.mp (by rw [UInt64.toNat_toUInt8]; omega)
  rw [tmpAddr,byte 40 (by decide) m0 (by change v.toNat / 2 ^ 40 % 256 = _; omega),
    byte 32 (by decide) m1 (by change v.toNat / 2 ^ 32 % 256 = _; omega),
    byte 24 (by decide) m2 (by change v.toNat / 2 ^ 24 % 256 = _; omega),
    byte 16 (by decide) m3 (by change v.toNat / 2 ^ 16 % 256 = _; omega),
    byte 8 (by decide) m4 (by change v.toNat / 2 ^ 8 % 256 = _; omega),last]

end bytes

section walk

variable {mask : Addr}

theorem rebuilt (contiguous : mask.u64.toNat = BitField.mask s w) (fits : s + w ≤ 48) (start : Addr) (val : UInt64) :
    ((start.u64 &&& ~~~mask.u64) ||| (val &&& mask.u64)).toNat = BitField.set s w start.u64.toNat (BitField.get s w val.toNat) := by
  have small : start.u64.toNat < 2 ^ 64 := start.u64.toNat_lt
  rw [← BitField.merge (Nat.le_trans fits (by decide)) small,UInt64.toNat_or,UInt64.toNat_and,UInt64.toNat_and,UInt64.toNat_not,contiguous]
  rw [show UInt64.size - 1 - BitField.mask s w = 2 ^ 64 - (BitField.mask s w + 1) by rw [Nat.add_comm,Nat.sub_add_eq]; rfl]

theorem fits_of (positive : 0 < w) (contiguous : mask.u64.toNat = BitField.mask s w) : s + w ≤ 48 := by
  by_contra outside
  have bit : mask.u64.toNat.testBit (s + w - 1) = true := by
    rw [contiguous,BitField.testBit_mask]
    exact decide_eq_true (by omega)
  have low := Nat.lt_of_lt_of_le (u64_lt mask) (Nat.pow_le_pow_right (by decide : 0 < 2) (by omega : 48 ≤ s + w - 1))
  rw [Nat.testBit_lt_two_pow low] at bit
  contradiction

theorem ffs64_mask (positive : 0 < w) (contiguous : mask.u64.toNat = BitField.mask s w) : ffs64 mask.u64 = s := by
  have fits := fits_of positive contiguous
  rw [ffs64,contiguous,List.findIdx_eq (by rw [List.length_range]; omega)]
  simp only [List.getElem_range,BitField.testBit_mask]
  exact ⟨decide_eq_true (by omega),fun j below => decide_eq_false (by omega)⟩

theorem count_interval (s w n : Nat) : Nat.count (fun i => s ≤ i ∧ i < s + w) n = min n (s + w) - min n s := by
  induction n with
  | zero => simp
  | succ n ih =>
    rw [Nat.count_succ,ih]
    split <;> omega

theorem hweight64_mask (positive : 0 < w) (contiguous : mask.u64.toNat = BitField.mask s w) : hweight64 mask.u64 = w := by
  have fits := fits_of positive contiguous
  simp only [hweight64,contiguous,BitField.testBit_mask,decide_eq_true_eq]
  rw [count_interval]
  omega

theorem fls64_mask (positive : 0 < w) (contiguous : mask.u64.toNat = BitField.mask s w) : fls64 mask.u64 = s + w := by
  rw [fls64,contiguous]
  apply Nat.le_antisymm (Nat.size_le.mpr (BitField.mask_lt s w))
  have top : s + w - 1 < (BitField.mask s w).size := by
    apply Nat.lt_size.mpr
    apply Nat.ge_two_pow_of_testBit
    rw [BitField.testBit_mask]
    exact decide_eq_true (by omega)
  omega

-- Induction on the addresses left. The loop is back at the start after the last one.
theorem search_finds (contiguous : mask.u64.toNat = BitField.mask s w) (fits : s + w ≤ 48) (step : inc.toNat = 2 ^ s) :
    ∀ n k rounds (val : UInt64), k + n + 1 = 2 ^ w → n < rounds → val.toNat = (BitField.get s w start.u64.toNat + k) * 2 ^ s →
      search l start.u64 mask.u64 inc rounds val
          (UInt64.ofNat (BitField.set s w start.u64.toNat (BitField.get s w start.u64.toNat + k))) =
        some (((List.range' k (n + 1)).map (counted start s w)).find? fun addr => !l.used addr)
  | _,_,0,_,_,enough,_ => absurd enough (Nat.not_lt_zero _)
  | n,k,rounds + 1,val,left,enough,counts => by
    have below := BitField.get_lt s w start.u64.toNat
    have room : 2 * 2 ^ w * 2 ^ s ≤ 2 ^ 49 := by
      rw [Nat.mul_assoc,← Nat.pow_add,← Nat.pow_succ']
      exact Nat.pow_le_pow_right (by decide) (by omega)
    have next : (val + inc).toNat = (BitField.get s w start.u64.toNat + (k + 1)) * 2 ^ s := by
      have sum : val.toNat + inc.toNat = (BitField.get s w start.u64.toNat + (k + 1)) * 2 ^ s := by
        rw [counts,step,← Nat.add_assoc,Nat.succ_mul]
      have inside : (BitField.get s w start.u64.toNat + (k + 1)) * 2 ^ s ≤ 2 * 2 ^ w * 2 ^ s := Nat.mul_le_mul_right _ (by omega)
      rw [UInt64.toNat_add,sum,Nat.mod_eq_of_lt (by omega)]
    have again := rebuilt contiguous fits start (val + inc)
    rw [next,BitField.get_shift,BitField.set_mod] at again
    rw [search,List.range'_succ,List.map_cons,List.find?_cons]
    change (if !l.used (counted start s w k) then _ else _) = _
    cases unused : !l.used (counted start s w k)
    · rw [if_neg Bool.false_ne_true]
      have back : (start.u64 &&& ~~~mask.u64) ||| ((val + inc) &&& mask.u64) = start.u64 ↔ n = 0 := by
        rw [← UInt64.toNat_inj,again,BitField.set_next_iff _ (Nat.succ_pos k) (by omega)]
        omega
      cases n with
      | zero => rw [if_neg (not_not_intro (back.mpr rfl)),List.range'_zero,List.map_nil,List.find?_nil]
      | succ n =>
        rw [if_pos fun same => Nat.succ_ne_zero n (back.mp same),← UInt64.ofNat_toNat (x := _ ||| _),again]
        exact search_finds contiguous fits step n (k + 1) rounds _ (by omega) (by omega) next
    · rfl

theorem counted_masked (contiguous : mask.u64.toNat = BitField.mask s w) (masked : Masked mask start other) :
    ∃ k < 2 ^ w, counted start s w k = other := by
  have whole : other.u64.toNat = BitField.set s w start.u64.toNat (BitField.get s w other.u64.toNat) := by
    apply BitField.set_of_agree
    intro i outside
    apply masked
    rw [contiguous,BitField.testBit_mask]
    exact decide_eq_false outside
  have below := BitField.get_lt s w start.u64.toNat
  generalize BitField.get s w other.u64.toNat = x at whole
  refine ⟨(x + (2 ^ w - BitField.get s w start.u64.toNat)) % 2 ^ w,Nat.mod_lt _ (Nat.two_pow_pos w),?_⟩
  have value : BitField.set s w start.u64.toNat (BitField.get s w start.u64.toNat +
      (x + (2 ^ w - BitField.get s w start.u64.toNat)) % 2 ^ w) = other.u64.toNat := by
    rw [whole,BitField.set_eq_iff,Nat.add_mod_mod,show BitField.get s w start.u64.toNat + (x + (2 ^ w - BitField.get s w start.u64.toNat)) =
      x + 2 ^ w by omega,Nat.add_mod_right]
  rw [counted,value,UInt64.ofNat_toNat,tmpAddr_u64]

end walk

section assign


theorem assigned (positive : 0 < w) (contiguous : l.addrMask.u64.toNat = BitField.mask s w) (default_ : Default l type) :
    ieee80211AssignPermAddr l type = some ((((List.range (2 ^ w)).map (counted (startAddr l) s w)).find? fun addr => !l.used addr).getD
      ((l.addresses.find? fun addr => !l.used addr).getD l.permAddr)) := by
  have fits := fits_of positive contiguous
  have bit : (BitField.mask s w).testBit s = true := by
    rw [BitField.testBit_mask]
    exact decide_eq_true (by omega)
  have there : isZeroEtherAddr l.addrMask = false := by
    apply beq_false_of_ne
    intro zero
    rw [← contiguous,zero] at bit
    rw [show (Addr.mk 0 0 0 0 0 0).u64.toNat = 0 from rfl,Nat.zero_testBit] at bit
    contradiction
  have whole : ieee80211AssignPermAddr l type = assignNewAddr l := by
    obtain ⟨_,_,_,device⟩ := default_
    unfold ieee80211AssignPermAddr
    rw [there,Bool.false_and,if_neg Bool.false_ne_true]
    cases type <;> first | contradiction | dsimp only; rw [device]
  have power : ((1 : UInt64) <<< UInt64.ofNat s).toNat = 2 ^ s := by
    have small : s % 2 ^ 64 % 64 = s := by omega
    rw [UInt64.toNat_shiftLeft,UInt64.toNat_ofNat',small,Nat.shiftLeft_eq]
    exact (congrArg (· % 2 ^ 64) (Nat.one_mul _)).trans (Nat.mod_eq_of_lt (Nat.pow_lt_pow_right (by decide) (by omega)))
  have first : ((startAddr l).u64 &&& l.addrMask.u64).toNat = (BitField.get s w (startAddr l).u64.toNat + 0) * 2 ^ s := by
    rw [UInt64.toNat_and,contiguous,BitField.and_mask,Nat.add_zero]
  have begin_ := rebuilt contiguous fits (startAddr l) ((startAddr l).u64 &&& l.addrMask.u64)
  rw [first,BitField.get_shift,BitField.set_mod] at begin_
  have rounds : 2 ^ w ≤ 2 ^ 48 := Nat.pow_le_pow_right (by decide) (by omega)
  have some_ := Nat.two_pow_pos w
  have found := search_finds (l := l) contiguous fits power (2 ^ w - 1) 0 (2 ^ 48) _ (by omega) (by omega) first
  rw [← begin_,UInt64.ofNat_toNat,Nat.sub_add_cancel some_,← List.range_eq_range'] at found
  rw [whole,assignNewAddr,there,if_neg Bool.false_ne_true]
  dsimp only
  rw [ffs64_mask positive contiguous,hweight64_mask positive contiguous,fls64_mask positive contiguous,if_neg (not_not_intro rfl),found]
  rfl

theorem assign_perm_addr (l : Local) (type : IfType) (s w : Nat) (positive : 0 < w)
    (contiguous : l.addrMask.u64.toNat = BitField.mask s w) (default_ : Default l type) :
    ∃ addr, ieee80211AssignPermAddr l type = some addr ∧
      ((∃ other, l.used other = false ∧ Masked l.addrMask (startAddr l) other) →
        ∃ k < 2 ^ w, addr = counted (startAddr l) s w k ∧ l.used addr = false ∧
          ∀ j < k, l.used (counted (startAddr l) s w j) = true) := by
  refine ⟨_,assigned positive contiguous default_,?_⟩
  rintro ⟨_,free,masked⟩
  obtain ⟨i,inside,rfl⟩ := counted_masked contiguous masked
  cases found : ((List.range (2 ^ w)).map (counted (startAddr l) s w)).find? fun addr => !l.used addr with
  | none =>
    have taken := List.find?_eq_none.mp found _ (List.mem_map_of_mem (List.mem_range.mpr inside))
    rw [free] at taken
    exact absurd rfl taken
  | some addr =>
    rw [List.find?_map] at found
    obtain ⟨k,first,rfl⟩ := Option.map_eq_some_iff.mp found
    rw [List.find?_range_eq_some] at first
    obtain ⟨unused,member,before⟩ := first
    exact ⟨k,List.mem_range.mp member,rfl,by simpa using unused,fun j below => by simpa using before j below⟩

end assign

-- An interface has the address with both bits set.
def twoBits : Local := ⟨⟨2,0,0,0,0,0⟩,⟨0,0,0,0,1,0x80⟩,[],false,[⟨.station,⟨2,0,0,0,1,0x80⟩,true⟩]⟩

theorem assign_perm_addr_sample : ∃ addr, ieee80211AssignPermAddr twoBits .station = some addr ∧
    ∃ k < 2 ^ 2, addr = counted (startAddr twoBits) 7 2 k ∧ twoBits.used addr = false ∧
      ∀ j < k, twoBits.used (counted (startAddr twoBits) 7 2 j) = true := by
  obtain ⟨addr,some_,first⟩ := assign_perm_addr twoBits .station 7 2 (by decide) (by decide) ⟨by decide,by decide,by decide,rfl⟩
  refine ⟨addr,some_,first ⟨⟨2,0,0,0,0,0⟩,by decide,?_⟩⟩
  intro i outside
  have whole : (startAddr twoBits).u64.toNat = (Addr.mk 2 0 0 0 0 0).u64.toNat ||| twoBits.addrMask.u64.toNat := by decide
  rw [whole,Nat.testBit_or,outside,Bool.or_false]

end Mac80211.PermAddr

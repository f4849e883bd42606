import Mac80211.TlRx

namespace Mac80211.TlRx
open Loops

theorem bytes_or (top : a < 256) (mid : b < 256) (low : c < 256) (last : d < 256) :
    a <<< 24 % 2 ^ 32 ||| b <<< 16 % 2 ^ 32 ||| c <<< 8 % 2 ^ 32 ||| d = a * 2 ^ 24 + b * 2 ^ 16 + c * 2 ^ 8 + d := by
  have fits : ∀ x k, x < 256 → k ≤ 24 → x <<< k % 2 ^ 32 = x <<< k := by
    intro x k _ far
    have most : 2 ^ k ≤ 2 ^ 24 := Nat.pow_le_pow_right (by decide) far
    have product : x * 2 ^ k ≤ 255 * 2 ^ 24 := Nat.mul_le_mul (by omega) most
    exact Nat.mod_eq_of_lt (by omega)
  have one : c <<< 8 ||| d = c * 2 ^ 8 + d := by
    rw [← Nat.shiftLeft_add_eq_or_of_lt (by omega),Nat.shiftLeft_eq]
  have two : b <<< 16 ||| (c * 2 ^ 8 + d) = b * 2 ^ 16 + (c * 2 ^ 8 + d) := by
    rw [← Nat.shiftLeft_add_eq_or_of_lt (by omega),Nat.shiftLeft_eq]
  have three : a <<< 24 ||| (b * 2 ^ 16 + (c * 2 ^ 8 + d)) = a * 2 ^ 24 + (b * 2 ^ 16 + (c * 2 ^ 8 + d)) := by
    rw [← Nat.shiftLeft_add_eq_or_of_lt (by omega),Nat.shiftLeft_eq]
  rw [fits a 24 top (by decide),fits b 16 mid (by decide),fits c 8 low (by decide),Nat.or_assoc,Nat.or_assoc,one,two,three]
  omega

theorem low_byte (v : UInt32) : (v &&& 0xff).toUInt8.toUInt32.toNat = v.toNat % 256 := by
  have mask : v.toNat &&& 255 = v.toNat % 256 := Nat.and_two_pow_sub_one_eq_mod _ 8
  show (v.toNat &&& 255) % 256 = v.toNat % 256
  rw [mask,Nat.mod_mod]

theorem bytes_u32 (v : UInt32) :
    (v >>> 24 &&& 0xff).toUInt8.toUInt32 <<< 24 ||| (v >>> 16 &&& 0xff).toUInt8.toUInt32 <<< 16 |||
      (v >>> 8 &&& 0xff).toUInt8.toUInt32 <<< 8 ||| (v &&& 0xff).toUInt8.toUInt32 = v := by
  have bound := v.toNat_lt
  apply UInt32.toNat_inj.mp
  simp only [UInt32.toNat_or,UInt32.toNat_shiftLeft,low_byte]
  refine (bytes_or (by omega) (by omega) (by omega) (by omega)).trans ?_
  simp only [UInt32.toNat_shiftRight,Nat.shiftRight_eq_div_pow]
  show v.toNat / 2 ^ 24 % 256 * 2 ^ 24 + v.toNat / 2 ^ 16 % 256 * 2 ^ 16 + v.toNat / 2 ^ 8 % 256 * 2 ^ 8 + v.toNat % 256 = v.toNat
  omega

-- Fields that lie apart keep each other: a reader needs only the bounds of the writer.
def Writes (lo hi : Nat) (s t : Skb) : Prop := ∀ o, o < lo ∨ hi ≤ o → t.byte o = s.byte o

theorem Writes.trans (first : Writes lo hi s t) (second : Writes lo hi t u) : Writes lo hi s u := by
  intro o away
  rw [second o away,first o away]

theorem Writes.widen (writes : Writes lo hi s t) (low : lower ≤ lo) (high : hi ≤ upper) : Writes lower upper s t := by
  intro o _
  exact writes o (by omega)

section
variable (s : Skb) (offset : Nat)

theorem store_writes (v : UInt8) : Writes offset (offset + 1) s (s.store offset v) := by
  intro o _
  rw [Skb.byte_store,if_neg (by omega)]

theorem memcpy_byte (src : List UInt8) (o : Nat) : (memcpy s offset src).byte o =
      if offset ≤ o ∧ o < offset + src.length then src.getD (o - offset) 0 else s.byte o := by
  have shifted : s.data + o - (s.data + offset) = o - offset := by omega
  have bounds : (s.data + offset ≤ s.data + o ∧ s.data + o < s.data + offset + src.length) ↔
      (offset ≤ o ∧ o < offset + src.length) := by omega
  simp only [memcpy,Skb.byte,shifted,bounds]

theorem memcpy_writes (src : List UInt8) : Writes offset (offset + src.length) s (memcpy s offset src) := by
  intro o _
  rw [memcpy_byte,if_neg (by omega)]

theorem putU32_writes (v : UInt32) : Writes offset (offset + 4) s (putU32 s offset v) := by
  intro o _
  simp only [putU32,Skb.byte_store]
  rw [if_neg (by omega),if_neg (by omega),if_neg (by omega),if_neg (by omega)]

end

theorem getU32_congr (same : ∀ o < 4, t.byte (b + o) = s.byte (a + o)) : getU32 t b = getU32 s a := by
  have first := same 0 (by decide)
  have second := same 1 (by decide)
  have third := same 2 (by decide)
  have fourth := same 3 (by decide)
  simp only [Nat.add_zero] at first
  simp only [getU32,first,second,third,fourth]

theorem getU32_putU32 (s : Skb) (offset : Nat) (v : UInt32) : getU32 (putU32 s offset v) offset = v := by
  have first : (putU32 s offset v).byte offset = (v >>> 24 &&& 0xff).toUInt8 := by
    rw [putU32,Skb.byte_store,if_neg (by omega),Skb.byte_store,if_neg (by omega),Skb.byte_store,if_neg (by omega),
      Skb.byte_store_same]
  have second : (putU32 s offset v).byte (offset + 1) = (v >>> 16 &&& 0xff).toUInt8 := by
    rw [putU32,Skb.byte_store,if_neg (by omega),Skb.byte_store,if_neg (by omega),Skb.byte_store_same]
  have third : (putU32 s offset v).byte (offset + 2) = (v >>> 8 &&& 0xff).toUInt8 := by
    rw [putU32,Skb.byte_store,if_neg (by omega),Skb.byte_store_same]
  have fourth : (putU32 s offset v).byte (offset + 3) = (v &&& 0xff).toUInt8 := Skb.byte_store_same _ _ _
  rw [getU32,first,second,third,fourth]
  exact bytes_u32 v

theorem putRcv_counters (s : Skb) (offset : Nat) (rcv : Vector UInt32 8) :
    (∀ j < 8, getU32 (putRcv s offset rcv) (offset + 4 * j) = rcv.toList.getD j 0) ∧
      Writes offset (offset + 32) s (putRcv s offset rcv) := by
  refine forRange_rule (fun n t => (∀ j < n, getU32 t (offset + 4 * j) = rcv.toList.getD j 0) ∧
    Writes offset (offset + 32) s t) (Nat.zero_le 8) ?_ ?_
  · exact ⟨fun j small => by omega,fun o away => rfl⟩
  · rintro n t _ _ ⟨read,writes⟩
    have here := putU32_writes t (offset + 4 * n) (rcv.toList.getD n 0)
    refine ⟨fun j bound => ?_,writes.trans (here.widen (by omega) (by omega))⟩
    by_cases last : j = n
    · subst j
      exact getU32_putU32 _ _ _
    · rw [← read j (by omega)]
      exact getU32_congr fun o inside => here _ (by omega)

theorem getRcv_putRcv (s : Skb) (offset : Nat) (rcv : Vector UInt32 8) : getRcv (putRcv s offset rcv) offset = rcv := by
  ext j small
  rw [getRcv,Vector.getElem_ofFn,(putRcv_counters s offset rcv).1 j small]
  simp [List.getD_eq_getElem?_getD,small]

theorem getRcv_congr (same : ∀ o < 32, t.byte (b + o) = s.byte (a + o)) : getRcv t b = getRcv s a := by
  ext j small
  simp only [getRcv,Vector.getElem_ofFn]
  apply congrArg
  refine getU32_congr fun o inside => ?_
  rw [Nat.add_assoc,Nat.add_assoc]
  exact same _ (by omega)

theorem putRcv_len (s : Skb) (offset : Nat) (rcv : Vector UInt32 8) : (putRcv s offset rcv).len = s.len := by
  exact forRange_keeps (fun t : Skb => t.len = s.len) rfl fun j t _ _ same => same

structure Headed (wire : Skb) (addr : EthAddr) (type : TrType) : Prop where
  target : getAddr wire 0 = addr
  protocol : wire.byte 12 = 0x08 ∧ wire.byte 13 = 0x11
  kind : wire.byte 14 = type.code

theorem Headed.written (headed : Headed wire addr type) (writes : Writes lo hi wire after) (behind : 15 ≤ lo) :
    Headed after addr type := by
  refine ⟨?_,⟨?_,?_⟩,?_⟩
  · rw [← headed.target]
    refine Vector.ext fun j small => ?_
    simp only [getAddr,Vector.getElem_ofFn]
    exact writes (0 + j) (by omega)
  · rw [writes 12 (by omega)]
    exact headed.protocol.1
  · rw [writes 13 (by omega)]
    exact headed.protocol.2
  · rw [writes 14 (by omega)]
    exact headed.kind

theorem alloc_cases (room : Bool) (dev : NetDevice) (daddr saddr : EthAddr) (size : Nat) (type : TrType) (kernel : Kernel) :
    (room = false ∨ size < 15) ∧ tlAllocSkb room dev daddr saddr size type kernel = (none,kernel) ∨
      ∃ rpt, tlAllocSkb room dev daddr saddr size type kernel = (some rpt,{kernel with nextSkb := kernel.nextSkb + 1}) ∧
        rpt.len = size ∧ Headed rpt daddr type := by
  unfold tlAllocSkb
  split
  · next short => exact Or.inl ⟨Or.inr short,rfl⟩
  split
  · refine Or.inr ⟨_,rfl,rfl,?_,⟨?_,?_⟩,?_⟩
    · refine Vector.ext fun j small => ?_
      simp only [getAddr,Vector.getElem_ofFn,etherHeadLen,ethAlen]
      rw [Skb.byte_store,if_neg (by omega),Skb.byte_store,if_neg (by omega),Skb.byte_store,if_neg (by omega),memcpy_byte,
        if_neg (by omega),memcpy_byte,Vector.length_toList,if_pos (by omega)]
      simp [List.getD_eq_getElem?_getD,small]
    · rw [Skb.byte_store,if_neg (by decide),Skb.byte_store,if_neg (by decide),Skb.byte_store_same]
    · rw [Skb.byte_store,if_neg (by decide),Skb.byte_store_same]
    · exact Skb.byte_store_same _ _ _
  · next full => exact Or.inl ⟨Or.inl (Bool.not_eq_true _ ▸ full),rfl⟩

theorem drawTrId_log (last : UInt32) (kernel : Kernel) : (drawTrId last kernel).2.log = kernel.log := by
  unfold drawTrId
  dsimp only
  split
  · rfl
  · rfl

theorem fill_keeps (low : o < lo)
    (ran : forRange lo hi (fun i (s : Skb × Kernel) => (s.1.store i (getRandomByte s.2).1,(getRandomByte s.2).2)) s = t) :
    t.1.byte o = s.1.byte o ∧ t.2.log = s.2.log := by
  rw [← ran]
  refine forRange_keeps (fun t : Skb × Kernel => t.1.byte o = s.1.byte o ∧ t.2.log = s.2.log) ⟨rfl,rfl⟩ ?_
  rintro i t _ _ ⟨byte,log⟩
  refine ⟨?_,log⟩
  rw [store_writes t.1 i _ o (.inl (by omega))]
  exact byte

section
variable (type : TrType) (room : Bool) (dev : NetDevice) (k trId : UInt32) (mcs : UInt8) (i : Nat) (kernel : Kernel)

theorem trainingFrame_cases : trainingFrame type room dev k trId mcs i kernel = kernel ∨
      ∃ s : Skb × Kernel, trainingFrame type room dev k trId mcs i kernel = devQueueXmit s.1 s.2 ∧ s.1.byte 14 = type.code ∧
        s.2.log = kernel.log := by
  generalize result : trainingFrame type room dev k trId mcs i kernel = after
  unfold trainingFrame at result
  have alloc := alloc_cases room dev multicastAddr dev.devAddr tfSize type kernel
  split at result
  · rename_i failed
    rcases alloc with ⟨_,none_made⟩ | ⟨_,made,_⟩
    · rw [none_made] at failed
      cases failed
      exact .inl result.symm
    · rw [made] at failed
      cases failed
  rename_i otf _ made
  rcases alloc with ⟨_,failed⟩ | ⟨_,made_too,_,headed⟩
  · rw [failed] at made
    cases made
  rw [made_too] at made
  cases made
  have filled := headed.written (putU32_writes otf (etherHeadLen + 1) k) (by decide)
  have numbered := filled.written (putU32_writes _ (etherHeadLen + 5) (UInt32.ofNat i)) (by decide)
  have named := numbered.written (putU32_writes _ (etherHeadLen + 9) trId) (by decide)
  have rated := named.written (store_writes _ (etherHeadLen + 13) mcs) (by decide)
  have behind : 14 < etherHeadLen + 14 := by decide
  extract_lets at result
  split at result
  rename_i ran
  have ⟨byte,log⟩ := fill_keeps behind ran
  exact .inr ⟨_,result.symm,byte.trans rated.kind,log⟩

theorem trainingFrame_log : kernel.log <+: (trainingFrame type room dev k trId mcs i kernel).log := by
  rcases trainingFrame_cases type room dev k trId mcs i kernel with same | ⟨s,sent,_,log⟩
  · exact same.symm ▸ List.prefix_rfl
  · rw [sent,← log]
    exact List.prefix_append _ _

end

theorem sendTrainingFrames_log (sent : sendTrainingFrames type room dev k trId mcs kernel = some after) :
    kernel.log <+: after.log := by
  unfold sendTrainingFrames at sent
  split at sent
  · cases sent
    exact List.prefix_rfl
  · obtain ⟨dev,_,rfl⟩ := Option.map_eq_some_iff.mp sent
    refine forRange_keeps (fun s : Kernel => kernel.log <+: s.log) List.prefix_rfl ?_
    intro i s _ _ kept
    exact kept.trans (trainingFrame_log type (room i) dev k trId mcs i s)

end Mac80211.TlRx

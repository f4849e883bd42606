import Mac80211.TlFrame
import Mac80211.TlRxDst

namespace Mac80211.TlRxDst
open TlRx

-- The least significant byte first.
def word (mem : Nat → UInt8) (a : Nat) : UInt32 :=
  (mem (a + 3)).toUInt32 <<< 24 ||| (mem (a + 2)).toUInt32 <<< 16 ||| (mem (a + 1)).toUInt32 <<< 8 ||| (mem a).toUInt32

def setWord (mem : Nat → UInt8) (a : Nat) (v : UInt32) : Nat → UInt8 := fun x =>
  if x = a then (v &&& 0xff).toUInt8
  else if x = a + 1 then (v >>> 8 &&& 0xff).toUInt8
  else if x = a + 2 then (v >>> 16 &&& 0xff).toUInt8
  else if x = a + 3 then (v >>> 24 &&& 0xff).toUInt8
  else mem x

inductive Pointers where
  | bits32
  | bits64

def Pointers.size : Pointers → Nat
  | .bits32 => 4
  | .bits64 => 8

def alignTo (n a : Nat) : Nat := (n + (a - 1)) / a * a

def devAt (p : Pointers) : Nat := alignTo ethAlen p.size
def totalNumAt (p : Pointers) : Nat := devAt p + p.size
def rcvNumAt (p : Pointers) : Nat := totalNumAt p + 4
def rssiAt (p : Pointers) : Nat := rcvNumAt p + 4 * numMcs
def battAt (p : Pointers) : Nat := rssiAt p + 1
def tfCntAt (p : Pointers) : Nat := battAt p + 1
def nrCntAt (p : Pointers) : Nat := tfCntAt p + 1

-- Its pointers are not compared.
structure Holds (p : Pointers) (a : Nat) (info : TrInfo) (mem : Nat → UInt8) : Prop where
  addr : ∀ i < ethAlen, mem (a + i) = byteAt info.addr i
  totalNum : word mem (a + totalNumAt p) = info.totalNum
  rcvNum : ∀ j (small : j < 8), word mem (a + rcvNumAt p + 4 * j) = info.rcvNum[j]
  rssi : mem (a + rssiAt p) = info.rssi
  batt : mem (a + battAt p) = info.batt
  tfCnt : mem (a + tfCntAt p) = info.tfCnt.toUInt8
  nrCnt : mem (a + nrCntAt p) = info.nrCnt.toUInt8

-- (info->rcv_num[mcs])++ with no bound on mcs.
def countAt (p : Pointers) (a : Nat) (mcs : UInt8) (mem : Nat → UInt8) : Nat → UInt8 :=
  let place := a + rcvNumAt p + 4 * mcs.toNat
  setWord mem place (word mem place + 1)

def counted (skb : Skb) (s : State) : Option TrInfo :=
  if skb.byte 0 = TrType.typeOneTF.code then
    if (skb.byte 13).toNat > numMcs then none
    else if getU32 skb 1 < getU32 skb 5 then none
    else some (tf1Record skb s)
  else if skb.byte 0 = TrType.typeTwoTF.code then
    if getU32 skb 1 < getU32 skb 5 then none else some (tf2Record skb s)
  else none

-- With the record at address a.
def receiveAt (p : Pointers) (a : Nat) (skb : Skb) (s : State) (mem : Nat → UInt8) : Nat → UInt8 :=
  match counted skb s with
  | none => mem
  | some _ => countAt p a (skb.byte 13) mem

def Accepted (skb : Skb) : Prop :=
  ¬getU32 skb 1 < getU32 skb 5 ∧
    (skb.byte 0 = TrType.typeOneTF.code ∧ ¬(skb.byte 13).toNat > numMcs ∨ skb.byte 0 = TrType.typeTwoTF.code)

structure OnlyCounter (p : Pointers) (a : Nat) (skb : Skb) (s : State) (mem : Nat → UInt8) : Prop where
  sender : ∀ info, counted skb s = some info → info.addr = saddr skb
  record : ∀ info, counted skb s = some info → Holds p a info mem →
    ∃ after, countRcv (skb.byte 13) info = some after ∧ Holds p a after (receiveAt p a skb s mem)
  rest : ∀ x, receiveAt p a skb s mem x ≠ mem x → (skb.byte 13).toNat < numMcs ∧
    a + rcvNumAt p + 4 * (skb.byte 13).toNat ≤ x ∧ x < a + rcvNumAt p + 4 * (skb.byte 13).toNat + 4

theorem word_congr (same : ∀ i < 4, m (a + i) = mem (a + i)) : word m a = word mem a := by
  have first := same 0 (by decide)
  rw [Nat.add_zero] at first
  rw [word,word,first,same 1 (by decide),same 2 (by decide),same 3 (by decide)]

theorem setWord_other (outside : x < a ∨ a + 4 ≤ x) (mem : Nat → UInt8) (v : UInt32) : setWord mem a v x = mem x := by
  unfold setWord
  rw [if_neg (by omega),if_neg (by omega),if_neg (by omega),if_neg (by omega)]

theorem word_setWord (mem : Nat → UInt8) (a : Nat) (v : UInt32) : word (setWord mem a v) a = v := by
  have first : setWord mem a v a = (v &&& 0xff).toUInt8 := if_pos rfl
  have second : setWord mem a v (a + 1) = (v >>> 8 &&& 0xff).toUInt8 := by
    rw [setWord,if_neg (by omega),if_pos rfl]
  have third : setWord mem a v (a + 2) = (v >>> 16 &&& 0xff).toUInt8 := by
    rw [setWord,if_neg (by omega),if_neg (by omega),if_pos rfl]
  have fourth : setWord mem a v (a + 3) = (v >>> 24 &&& 0xff).toUInt8 := by
    rw [setWord,if_neg (by omega),if_neg (by omega),if_neg (by omega),if_pos rfl]
  rw [word,first,second,third,fourth]
  exact bytes_u32 v

theorem word_apart (outside : b + 4 ≤ a ∨ a + 4 ≤ b) (mem : Nat → UInt8) (v : UInt32) : word (setWord mem a v) b = word mem b :=
  word_congr fun i small => setWord_other (by omega) mem v

theorem countAt_holds (holds : Holds p a info mem) (counts : countRcv mcs info = some after) :
    Holds p a after (countAt p a mcs mem) := by
  unfold countRcv at counts
  split at counts
  · next small =>
    cases counts
    have fields : ethAlen ≤ devAt p := by cases p <;> decide
    have whole : numMcs = 8 := rfl
    have byte : ∀ x, x < a + rcvNumAt p ∨ a + rcvNumAt p + 32 ≤ x → countAt p a mcs mem x = mem x :=
      fun x outside => setWord_other (by omega) _ _
    constructor
    · intro i inside
      rw [byte _ (by unfold rcvNumAt totalNumAt; omega)]
      exact holds.addr i inside
    · exact (word_congr fun i inside => byte _ (by unfold rcvNumAt; omega)).trans holds.totalNum
    · intro j inside
      rw [Vector.getElem_set]
      split
      · next same =>
        subst same
        exact (word_setWord _ _ _).trans (by rw [holds.rcvNum _ small])
      · next other => exact (word_apart (by omega) _ _).trans (holds.rcvNum j inside)
    · exact (byte _ (by unfold rssiAt; omega)).trans holds.rssi
    · exact (byte _ (by unfold battAt rssiAt; omega)).trans holds.batt
    · exact (byte _ (by unfold tfCntAt battAt rssiAt; omega)).trans holds.tfCnt
    · exact (byte _ (by unfold nrCntAt tfCntAt battAt rssiAt; omega)).trans holds.nrCnt
  · cases counts

theorem countRcv_bounded (info : TrInfo) (small : mcs.toNat < numMcs) : ∃ after, countRcv mcs info = some after :=
  ⟨_,dif_pos small⟩

theorem counted_some : (counted skb s).isSome ↔ Accepted skb := by
  unfold counted Accepted
  split
  · next one =>
    have two : skb.byte 0 ≠ TrType.typeTwoTF.code := by
      rw [one]
      decide
    split
    · next high => simp [high,two]
    · next low =>
      split
      · next late => simp [late]
      · next number => simp [number,one,low]
  · next other =>
    split
    · next two =>
      split
      · next late => simp [late]
      · next number => simp [number,two]
    · next neither => simp [other,neither]

-- The record that is counted in is the one the handler keeps, and no frame that is turned away changes one.
theorem receive_counted (ran : tlReceiveSkbDst room skb s = some t) :
    (∀ info, counted skb (prepare s) = some info → ∃ after, countRcv (skb.byte 13) info = some after ∧
      (if skb.byte 0 = TrType.typeOneTF.code then t.tf1Info else t.tf2Info) = some after) ∧
    (counted skb (prepare s) = none → t.tf1Info = s.tf1Info ∧ t.tf2Info = s.tf2Info) := by
  have kept : (prepare s).tf1Info = s.tf1Info ∧ (prepare s).tf2Info = s.tf2Info := by
    unfold prepare
    split <;> exact ⟨rfl,rfl⟩
  have handled := receive_cases ran
  generalize prepare s = u at kept handled ⊢
  rw [← kept.1,← kept.2]
  have apart : ¬TrType.typeTwoTF.code = TrType.typeOneTF.code := by decide
  unfold counted
  cases handled with
  | invalid kind bad => simp [kind,bad]
  | late number => simp [number]
  | ignored one two => simp [one,two]
  | typeOneTF kind valid number handled =>
    obtain ⟨after,counts,here,_⟩ := typeOneTF_record handled
    simp [kind,valid,number,counts,here]
  | typeTwoTF kind number handled =>
    obtain ⟨after,counts,here⟩ := typeTwoTF_record handled
    simp [kind,apart,number,counts,here]
  | typeTwoTR kind =>
    have other : ¬TrType.typeTwoTR.code = TrType.typeOneTF.code ∧ ¬TrType.typeTwoTR.code = TrType.typeTwoTF.code := by decide
    have same : ∀ sdf, (typeTwoTR skb sdf u).tf1Info = u.tf1Info ∧ (typeTwoTR skb sdf u).tf2Info = u.tf2Info := by
      intro sdf
      unfold typeTwoTR
      split <;> exact ⟨rfl,rfl⟩
    simp [kind,other,same]
  | sendTF kind handled =>
    have other : ¬TrType.sendTF.code = TrType.typeOneTF.code ∧ ¬TrType.sendTF.code = TrType.typeTwoTF.code := by decide
    rcases sendTF_cases handled with rfl | ⟨_,_,_,_,_,_,_,_,_,rfl⟩ <;> simp [kind,other]

theorem countAt_changes (p : Pointers) (a : Nat) (mcs : UInt8) (mem : Nat → UInt8) : ∃ x, countAt p a mcs mem x ≠ mem x := by
  by_contra still
  have same : countAt p a mcs mem = mem := funext fun x => not_not.mp (not_exists.mp still x)
  have counts := word_setWord mem (a + rcvNumAt p + 4 * mcs.toNat) (word mem (a + rcvNumAt p + 4 * mcs.toNat) + 1)
  change word (countAt p a mcs mem) _ = _ at counts
  rw [same] at counts
  generalize word mem (a + rcvNumAt p + 4 * mcs.toNat) = v at counts
  have zero : (1 : UInt32) = 0 := by
    have moved : v + 0 = v + 1 := by rw [UInt32.add_zero]; exact counts
    exact (UInt32.add_right_inj v).mp moved.symm
  exact absurd zero (by decide)

theorem only_counter (p : Pointers) (a : Nat) (skb : Skb) (s : State) (mem : Nat → UInt8) :
    OnlyCounter p a skb s mem ↔ (Accepted skb → (skb.byte 13).toNat < numMcs) := by
  constructor
  · intro only accepted
    obtain ⟨info,here⟩ := Option.isSome_iff_exists.mp ((counted_some (s := s)).mpr accepted)
    have place : receiveAt p a skb s mem = countAt p a (skb.byte 13) mem := by
      rw [receiveAt,here]
    obtain ⟨x,changed⟩ := countAt_changes p a (skb.byte 13) mem
    rw [← place] at changed
    exact (only.rest x changed).1
  intro bounded
  have small : ∀ info, counted skb s = some info → (skb.byte 13).toNat < numMcs :=
    fun info here => bounded (counted_some.mp (Option.isSome_of_mem here))
  constructor
  · intro info here
    unfold counted at here
    split at here
    · split at here
      · cases here
      · split at here
        · cases here
        · cases here
          exact (tf1Record_cases skb s).1
    · split at here
      · split at here
        · cases here
        · cases here
          exact (tf2Record_cases skb s).1
      · cases here
  · intro info here holds
    obtain ⟨after,counts⟩ := countRcv_bounded info (small info here)
    refine ⟨after,counts,?_⟩
    rw [receiveAt,here]
    exact countAt_holds holds counts
  intro x changed
  unfold receiveAt at changed
  cases here : counted skb s with
  | none =>
    rw [here] at changed
    exact absurd rfl changed
  | some info =>
    rw [here] at changed
    refine ⟨small info here,?_⟩
    by_contra outside
    exact changed (setWord_other (by omega) _ _)

namespace CounterSample

def frame : Skb := Sample.frame Sample.source [1,0,0,0,5,0,0,0,1,0,0,0,7,8]
def mem : Nat → UInt8 := fun a => (Sample.source.toList ++ [0,0,0,0,0,0,0,0,0,0,5]).getD a 0

end CounterSample

open CounterSample in
theorem eighth_counter : Accepted frame ∧ Holds .bits64 0 (tf1Record frame (initial fun _ => 0)) mem ∧
    ¬OnlyCounter .bits64 0 frame (initial fun _ => 0) mem ∧
    mem (rssiAt .bits64) = 0 ∧ receiveAt .bits64 0 frame (initial fun _ => 0) mem (rssiAt .bits64) = 1 := by
  have changed : receiveAt .bits64 0 frame (initial fun _ => 0) mem (rssiAt .bits64) ≠ mem (rssiAt .bits64) := by decide
  refine ⟨⟨by decide,Or.inl ⟨by decide,by decide⟩⟩,⟨by decide,by decide,by decide,by decide,by decide,by decide,by decide⟩,?_,
    by decide,by decide⟩
  exact fun only => absurd (only.rest _ changed).1 (by decide)

end Mac80211.TlRxDst

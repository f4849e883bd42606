import Mac80211.Wpa
import Mathlib.Data.List.Pairwise

namespace Mac80211.Wpa
open Ieee80211

def number : List UInt8 → Nat
  | [] => 0
  | b :: bytes => b.toNat * 256 ^ bytes.length + number bytes

theorem number_lt (bytes : List UInt8) : number bytes < 256 ^ bytes.length := by
  induction bytes with
  | nil => exact Nat.one_pos
  | cons b bytes ih =>
    have top : b.toNat + 1 ≤ 256 := b.toNat_lt
    have scaled := Nat.mul_le_mul_right (256 ^ bytes.length) top
    rw [Nat.add_mul,Nat.one_mul] at scaled
    rw [List.length_cons,Nat.pow_succ,Nat.mul_comm (256 ^ _)]
    exact Nat.lt_of_lt_of_le (Nat.add_lt_add_left ih _) scaled

theorem memcmp_number (same : as.length = bs.length) : memcmp as bs ≤ 0 ↔ number as ≤ number bs := by
  induction as generalizing bs with
  | nil =>
    cases bs with
    | nil => simp [memcmp]
    | cons => cases same
  | cons a as ih =>
    cases bs with
    | nil => cases same
    | cons b bs =>
      have shorter : as.length = bs.length := Nat.succ.inj same
      have low := number_lt as
      have high := number_lt bs
      simp only [memcmp,number]
      rw [shorter] at low ⊢
      generalize 256 ^ bs.length = size at low high
      by_cases equal : a = b
      · rw [if_pos equal,equal,ih shorter]
        exact (Nat.add_le_add_iff_left).symm
      · have apart : a.toNat ≠ b.toNat := fun same => equal (UInt8.toNat_inj.mp same)
        rw [if_neg equal]
        rcases Nat.lt_or_gt_of_ne apart with less | more
        · have step := Nat.mul_le_mul_right size (Nat.succ_le_of_lt less)
          rw [Nat.succ_mul] at step
          constructor <;> intro _ <;> omega
        · have step := Nat.mul_le_mul_right size (Nat.succ_le_of_lt more)
          rw [Nat.succ_mul] at step
          constructor <;> intro _ <;> omega

def Pn.number (pn : Pn) : Nat := Wpa.number pn.toList

theorem pn_length (pn : Pn) : pn.toList.length = 6 := by simp

theorem memcmp_pn (a b : Pn) : memcmp a.toList b.toList ≤ 0 ↔ a.number ≤ b.number :=
  memcmp_number ((pn_length a).trans (pn_length b).symm)

theorem pnOf_number (small : pn64.toNat < 2 ^ 48) : (pnOf pn64).number = pn64.toNat := by
  have bytes : (pnOf pn64).toList = [(pn64 >>> 40).toUInt8,(pn64 >>> 32).toUInt8,(pn64 >>> 24).toUInt8,
    (pn64 >>> 16).toUInt8,(pn64 >>> 8).toUInt8,pn64.toUInt8] := rfl
  unfold Pn.number
  rw [bytes]
  simp only [number,List.length_cons,List.length_nil,UInt64.toNat_toUInt8,UInt64.toNat_shiftRight,Nat.shiftRight_eq_div_pow]
  simp
  omega

theorem hdr2pn_pn2hdr (pn : Pn) (keyId : UInt8) (rest : List UInt8) : hdr2pn (pn2hdr pn keyId ++ rest) = pn := by
  obtain ⟨⟨bytes⟩,six⟩ := pn
  match bytes,six with
  | [a,b,c,d,e,f],_ => rfl

theorem decrypt_cases (aead : Aead) (c : Cipher) (key : Key) (rx : RxData) :
    (∃ replays, (cryptoDecrypt aead c key rx).1 = {key with replays := replays} ∧ (cryptoDecrypt aead c key rx).2.isAccepted = false) ∨
    ((key.rxPn (securityIdx rx.skb.hdr)).number < (hdr2pn rx.skb.body).number ∧ rx.pulled = true ∧ ∃ data,
      (rx.decrypted = true ∨ aesDecrypt aead (c.nonce rx.skb.hdr (hdr2pn rx.skb.body)) (assoc rx.stack rx.skb.hdr)
        (cipherText c rx.skb) (mic c rx.skb) = some data) ∧ cryptoDecrypt aead c key rx = accept key rx data) := by
  unfold cryptoDecrypt
  simp only
  split
  · exact .inl ⟨_,rfl,rfl⟩
  split
  · exact .inl ⟨_,rfl,rfl⟩
  split
  · exact .inl ⟨_,rfl,rfl⟩
  rename_i starved
  have pulled : rx.pulled = true := by simpa using starved
  split
  case isTrue => exact .inl ⟨_,rfl,rfl⟩
  case isFalse newer =>
    rw [memcmp_pn,Nat.not_le] at newer
    split
    case isTrue device => exact .inr ⟨newer,pulled,_,.inl device,rfl⟩
    case isFalse =>
      split
      case h_1 => exact .inl ⟨_,rfl,rfl⟩
      case h_2 data opened => exact .inr ⟨newer,pulled,data,.inr opened,rfl⟩

theorem accept_rxPn (key : Key) (rx : RxData) (data : List UInt8) :
    (accept key rx data).1.rxPn = Function.update key.rxPn (securityIdx rx.skb.hdr) (hdr2pn rx.skb.body) := by
  unfold accept
  split
  · rfl
  · rfl

theorem accept_accepted (key : Key) (rx : RxData) (data : List UInt8) :
    (accept key rx data).2.isAccepted = !(rx.decrypted && !rx.trimmed) := by
  unfold accept
  split
  case isTrue lost => rw [lost]; rfl
  case isFalse fine => simp [fine,RxResult.isAccepted]

theorem failed_unchanged (software : rx.decrypted = false) (failed : aesDecrypt aead (c.nonce rx.skb.hdr (hdr2pn rx.skb.body))
    (assoc rx.stack rx.skb.hdr) (cipherText c rx.skb) (mic c rx.skb) = none) (key : Key) :
    (cryptoDecrypt aead c key rx).1.rxPn = key.rxPn ∧ (cryptoDecrypt aead c key rx).2.isAccepted = false := by
  rcases decrypt_cases aead c key rx with ⟨_,same,refused⟩ | ⟨_,_,_,device | opened,_⟩
  · exact ⟨by rw [same],refused⟩
  · exact nomatch software.symm.trans device
  · exact nomatch failed.symm.trans opened

def deviceOpen (aead : Aead) (c : Cipher) (m : Mpdu) : Option (List UInt8) :=
  if dataLen c m < 0 then none
  else aead.decrypt (c.nonce m.hdr (hdr2pn m.body)) (assoc (fun _ => 0) m.hdr) (cipherText c m) (mic c m)

structure Arrival where
  mpdu : Mpdu
  offload : Bool
  pulled : Bool
  trimmed : Bool
  stack : Nat → UInt8

def Arrival.rxData (aead : Aead) (c : Cipher) (a : Arrival) : RxData :=
  match if a.offload then deviceOpen aead c a.mpdu else none with
  | some data => ⟨⟨a.mpdu.hdr,a.mpdu.body.take hdrLen ++ data ++ mic c a.mpdu⟩,true,true,a.pulled,a.trimmed,a.stack⟩
  | none => ⟨a.mpdu,false,true,a.pulled,a.trimmed,a.stack⟩

structure World where
  txPn : UInt64
  air : List Mpdu
  key : Key
  offered : List Arrival
  accepted : List Mpdu

-- The channel loses, repeats and reorders by what is received when.
inductive Event where
  | send (m : Mpdu) (skbs : List TxSkb)
  | receive (a : Arrival)

structure Setup where
  aead : Aead
  cipher : Cipher
  keyId : UInt8
  mfp : Bool

def step (k : Setup) (w : World) : Event → World
  | .send m skbs =>
    if txHSelectKey k.mfp m then
      let out := encryptSkbs k.aead k.cipher k.keyId skbs w.txPn
      {w with txPn := out.1,air := w.air ++ out.2.getD []}
    else w
  | .receive a =>
    let out := cryptoDecrypt k.aead k.cipher w.key (a.rxData k.aead k.cipher)
    {w with
      key := out.1,
      offered := if a.mpdu ∈ w.air then w.offered ++ [a] else w.offered,
      accepted := if out.2.isAccepted then w.accepted ++ [a.mpdu] else w.accepted}

def run (k : Setup) (events : List Event) (w : World) : World := events.foldl (step k) w

def pn (m : Mpdu) : Nat := (hdr2pn m.body).number

def onQueue (q : Nat) (frames : List Mpdu) : List Mpdu := frames.filter fun m => securityIdx m.hdr = q

-- What is accepted on a queue has rising numbers, up to the counter.
def Rising (init : Nat → Nat) (w : World) : Prop :=
  ∀ q, (onQueue q w.accepted).Pairwise (fun a b => pn a < pn b) ∧ init q ≤ (w.key.rxPn q).number ∧
    ∀ m ∈ onQueue q w.accepted, init q < pn m ∧ pn m ≤ (w.key.rxPn q).number

theorem rxData_hdr (aead : Aead) (c : Cipher) (a : Arrival) : (a.rxData aead c).skb.hdr = a.mpdu.hdr := by
  unfold Arrival.rxData
  split
  · rfl
  · rfl

theorem hdr2pn_take (bytes rest : List UInt8) (long : hdrLen ≤ bytes.length) : hdr2pn (bytes.take hdrLen ++ rest) = hdr2pn bytes := by
  have head : ∀ i, i < hdrLen → (bytes.take hdrLen ++ rest).getD i 0 = bytes.getD i 0 := by
    intro i small
    simp only [List.getD_eq_getElem?_getD]
    rw [List.getElem?_append_left (by rw [List.length_take]; omega),List.getElem?_take_of_lt small]
  unfold hdr2pn
  rw [head 7 (by decide),head 6 (by decide),head 5 (by decide),head 4 (by decide),head 1 (by decide),head 0 (by decide)]

theorem rxData_pn (aead : Aead) (c : Cipher) (a : Arrival) : hdr2pn (a.rxData aead c).skb.body = hdr2pn a.mpdu.body := by
  unfold Arrival.rxData
  split
  case h_1 data opened =>
    have long : ¬dataLen c a.mpdu < 0 := by
      intro short
      split at opened
      · unfold deviceOpen at opened
        rw [if_pos short] at opened
        cases opened
      · cases opened
    unfold dataLen at long
    simp only [List.append_assoc]
    exact hdr2pn_take _ _ (by omega)
  case h_2 => rfl

theorem onQueue_append (q : Nat) (frames : List Mpdu) (m : Mpdu) :
    onQueue q (frames ++ [m]) = onQueue q frames ++ if securityIdx m.hdr = q then [m] else [] := by
  unfold onQueue
  by_cases same : securityIdx m.hdr = q
  · simp [same]
  · simp [same]

theorem step_rising (rising : Rising init w) (e : Event) : Rising init (step k w e) := by
  cases e with
  | send =>
    simp only [step]
    split <;> exact rising
  | receive a =>
    intro q
    obtain ⟨before,least,bounds⟩ := rising q
    simp only [step]
    rcases decrypt_cases k.aead k.cipher w.key (a.rxData k.aead k.cipher) with ⟨_,same,refused⟩ | ⟨newer,_,_,_,taken⟩
    · rw [same,refused,if_neg (by decide)]
      exact rising q
    rw [taken,accept_rxPn,rxData_hdr,rxData_pn]
    rw [rxData_hdr,rxData_pn] at newer
    by_cases mine : securityIdx a.mpdu.hdr = q
    · subst mine
      rw [Function.update_self]
      have higher : ∀ m ∈ onQueue (securityIdx a.mpdu.hdr) w.accepted,pn m < pn a.mpdu := fun m old =>
        Nat.lt_of_le_of_lt (bounds m old).2 newer
      split
      · rw [onQueue_append,if_pos rfl]
        refine ⟨List.pairwise_append.mpr ⟨before,List.pairwise_singleton _ _,?_⟩,Nat.le_of_lt (Nat.lt_of_le_of_lt least newer),?_⟩
        · intro m old _ new
          rw [List.mem_singleton.mp new]
          exact higher m old
        · intro m held
          rcases List.mem_append.mp held with old | new
          · exact ⟨(bounds m old).1,Nat.le_of_lt (higher m old)⟩
          · rw [List.mem_singleton.mp new]
            exact ⟨Nat.lt_of_le_of_lt least newer,Nat.le_refl _⟩
      · exact ⟨before,Nat.le_of_lt (Nat.lt_of_le_of_lt least newer),fun m old => ⟨(bounds m old).1,Nat.le_of_lt (higher m old)⟩⟩
    · rw [Function.update_of_ne (Ne.symm mine)]
      split
      · rw [onQueue_append,if_neg mine,List.append_nil]
        exact ⟨before,least,bounds⟩
      · exact ⟨before,least,bounds⟩

theorem run_rising (rising : Rising init w) (k : Setup) (events : List Event) : Rising init (run k events w) := by
  induction events generalizing w with
  | nil => exact rising
  | cons e events ih => exact ih (step_rising rising e)

end Mac80211.Wpa

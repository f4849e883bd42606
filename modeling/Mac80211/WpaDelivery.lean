import Mac80211.WpaReplay

namespace Mac80211.Wpa
open Ieee80211

variable {k : Setup} {w : World}

-- Decryption inverts encryption, and the sizes are those asked for.
structure Correct (aead : Aead) (c : Cipher) : Prop where
  decrypts : ∀ nonce assoc data,
    aead.decrypt nonce assoc (aead.encrypt nonce assoc data).1 (aead.encrypt nonce assoc data).2 = some data
  dataLength : ∀ nonce assoc data, (aead.encrypt nonce assoc data).1.length = data.length
  micLength : ∀ nonce assoc data, (aead.encrypt nonce assoc data).2.length = c.micLen

theorem aadBlock_length (h : Hdr) : (aadBlock h).length = 32 := by
  unfold aadBlock
  simp only [List.length_append,List.length_cons,List.length_nil,Vector.length_toList]
  split
  · simp
  · rfl

theorem assoc_stack (short : hdrlen h.frameControl ≤ 32) (stack stack' : Nat → UInt8) : assoc stack h = assoc stack' h := by
  apply List.map_congr_left
  intro i inside
  have bound := List.mem_range.mp inside
  have within : 2 + i < (aadBlock h).length := by
    rw [aadBlock_length]
    omega
  simp only [List.getD_eq_getElem?_getD,List.getElem?_eq_getElem within,Option.getD_some]

def Sealed (k : Setup) (f : Mpdu) (p : UInt64) (m : Mpdu) : Prop :=
  ∃ stack, f = encryptMpdu k.aead k.cipher stack (pnOf p) k.keyId m

theorem sealed_hdr (sealed_ : Sealed k f p m) : f.hdr = m.hdr := by
  obtain ⟨_,rfl⟩ := sealed_
  rfl

theorem encrypt_pn (aead : Aead) (c : Cipher) (stack : Nat → UInt8) (pn : Pn) (keyId : UInt8) (m : Mpdu) :
    hdr2pn (encryptMpdu aead c stack pn keyId m).body = pn := by
  exact hdr2pn_pn2hdr _ _ _

theorem sealed_pn (sealed_ : Sealed k f p m) (small : p.toNat < 2 ^ 48) : pn f = p.toNat := by
  obtain ⟨_,rfl⟩ := sealed_
  exact pnOf_number small

theorem sealed_parts (correct : Correct k.aead k.cipher) (stack : Nat → UInt8) (pn : Pn) (m : Mpdu) :
    dataLen k.cipher (encryptMpdu k.aead k.cipher stack pn k.keyId m) = m.body.length ∧
    cipherText k.cipher (encryptMpdu k.aead k.cipher stack pn k.keyId m) =
      (k.aead.encrypt (k.cipher.nonce m.hdr pn) (assoc stack m.hdr) m.body).1 ∧
    mic k.cipher (encryptMpdu k.aead k.cipher stack pn k.keyId m) =
      (k.aead.encrypt (k.cipher.nonce m.hdr pn) (assoc stack m.hdr) m.body).2 := by
  have front : (pn2hdr pn k.keyId).length = hdrLen := rfl
  have data := correct.dataLength (k.cipher.nonce m.hdr pn) (assoc stack m.hdr) m.body
  have check := correct.micLength (k.cipher.nonce m.hdr pn) (assoc stack m.hdr) m.body
  have size : dataLen k.cipher (encryptMpdu k.aead k.cipher stack pn k.keyId m) = m.body.length := by
    unfold dataLen encryptMpdu
    simp only [List.length_append,front,data,check]
    omega
  refine ⟨size,?_,?_⟩
  · unfold cipherText
    rw [size]
    unfold encryptMpdu
    simp only [List.append_assoc]
    rw [List.drop_left' front,Int.toNat_natCast,List.take_left' data]
  · unfold mic encryptMpdu
    simp only [List.length_append,front,data,check]
    apply List.drop_left'
    rw [List.length_append,front,data]
    omega

-- It is accepted if its number is new.
def Arrival.memory (a : Arrival) : Bool := a.pulled && (!a.offload || a.trimmed)

theorem device_genuine (correct : Correct k.aead k.cipher) (short : hdrlen m.hdr.frameControl ≤ 32) (stack : Nat → UInt8) (pn : Pn) :
    deviceOpen k.aead k.cipher (encryptMpdu k.aead k.cipher stack pn k.keyId m) = some m.body := by
  obtain ⟨size,data,check⟩ := sealed_parts correct stack pn m
  unfold deviceOpen
  rw [size,data,check,if_neg (by omega)]
  rw [encrypt_pn]
  show k.aead.decrypt (k.cipher.nonce m.hdr pn) (assoc _ m.hdr) _ _ = _
  rw [assoc_stack short (fun _ => 0) stack]
  exact correct.decrypts _ _ _

theorem decrypt_new {c : Cipher} {key : Key} {rx : RxData} (checked : Checked rx.skb.hdr) (long : 0 ≤ dataLen c rx.skb)
    (sta : rx.sta = true) (pulled : rx.pulled = true)
    (newer : (key.rxPn (securityIdx rx.skb.hdr)).number < (hdr2pn rx.skb.body).number)
    (verified : rx.decrypted = true ∨ (aesDecrypt aead (c.nonce rx.skb.hdr (hdr2pn rx.skb.body)) (assoc rx.stack rx.skb.hdr)
      (cipherText c rx.skb) (mic c rx.skb)).isSome = true) :
    ∃ data, cryptoDecrypt aead c key rx = accept key rx data := by
  have some_body : 0 < rx.skb.body.length := by
    unfold dataLen hdrLen at long
    omega
  have kind : ¬(!isData rx.skb.hdr.frameControl && !isRobustMgmtFrame rx.skb) = true := by
    rcases checked_encrypted checked some_body with data | robust
    · simp [data]
    · simp [robust]
  have older : ¬memcmp (hdr2pn rx.skb.body).toList (key.rxPn (securityIdx rx.skb.hdr)).toList ≤ 0 := by
    rw [memcmp_pn]
    exact Nat.not_le_of_lt newer
  unfold cryptoDecrypt
  rw [if_neg kind,if_neg (by simp [sta,long]),if_neg (by simp [pulled]),if_neg older]
  split
  case isTrue => exact ⟨_,rfl⟩
  case isFalse software =>
    obtain ⟨data,opened⟩ := Option.isSome_iff_exists.mp (verified.resolve_left software)
    rw [opened]
    exact ⟨data,rfl⟩

theorem genuine_accepted (correct : Correct k.aead k.cipher) {a : Arrival} (genuine : Sealed k a.mpdu p m) (checked : Checked m.hdr)
    (some_body : m.body ≠ []) (short : hdrlen m.hdr.frameControl ≤ 32) (pulled : a.pulled = true)
    (newer : (w.key.rxPn (securityIdx m.hdr)).number < pn a.mpdu) :
    ∃ data, cryptoDecrypt k.aead k.cipher w.key (a.rxData k.aead k.cipher) =
      accept w.key (a.rxData k.aead k.cipher) data ∧ (a.rxData k.aead k.cipher).decrypted = a.offload := by
  obtain ⟨stack,same⟩ := genuine
  obtain ⟨size,cut,check⟩ := sealed_parts correct stack (pnOf p) m
  have opened := device_genuine correct short stack (pnOf p)
  have hdr : a.mpdu.hdr = m.hdr := by
    rw [same]
    rfl
  rw [← hdr] at checked newer
  rw [← same] at size cut check opened
  have handed := rxData_pn k.aead k.cipher a
  have header := rxData_hdr k.aead k.cipher a
  cases offload : a.offload with
  | true =>
    have arrival : a.rxData k.aead k.cipher =
        ⟨⟨a.mpdu.hdr,a.mpdu.body.take hdrLen ++ m.body ++ mic k.cipher a.mpdu⟩,true,true,a.pulled,a.trimmed,a.stack⟩ := by
      unfold Arrival.rxData
      rw [offload,if_pos rfl,opened]
    have number : (hdr2pn (a.rxData k.aead k.cipher).skb.body).number = pn a.mpdu := congrArg Pn.number handed
    have long : 0 ≤ dataLen k.cipher (a.rxData k.aead k.cipher).skb := by
      have sized := correct.micLength (k.cipher.nonce m.hdr (pnOf p)) (assoc stack m.hdr) m.body
      rw [← check] at sized
      rw [arrival]
      unfold dataLen at size ⊢
      simp only [List.length_append,List.length_take,sized]
      omega
    obtain ⟨data,taken⟩ := decrypt_new (header ▸ checked) long (by rw [arrival]) (by rw [arrival]; exact pulled)
      (by rw [header,number]; exact newer) (.inl (by rw [arrival]))
    exact ⟨data,taken,by rw [arrival]⟩
  | false =>
    have arrival : a.rxData k.aead k.cipher = ⟨a.mpdu,false,true,a.pulled,a.trimmed,a.stack⟩ := by
      unfold Arrival.rxData
      rw [offload]
      rfl
    have verified : aesDecrypt k.aead (k.cipher.nonce a.mpdu.hdr (hdr2pn a.mpdu.body)) (assoc a.stack a.mpdu.hdr)
        (cipherText k.cipher a.mpdu) (mic k.cipher a.mpdu) = some m.body := by
      have sized := correct.dataLength (k.cipher.nonce m.hdr (pnOf p)) (assoc stack m.hdr) m.body
      have number : hdr2pn a.mpdu.body = pnOf p := by
        rw [same]
        exact encrypt_pn _ _ _ _ _ _
      have filled : m.body.length ≠ 0 := fun empty => some_body (List.length_eq_zero_iff.mp empty)
      unfold aesDecrypt
      rw [cut,check,number,hdr,assoc_stack short a.stack stack,if_neg (by rw [sized]; exact filled)]
      exact correct.decrypts _ _ _
    rw [arrival]
    obtain ⟨data,taken⟩ := @decrypt_new k.aead k.cipher w.key ⟨a.mpdu,false,true,a.pulled,a.trimmed,a.stack⟩ checked
      (by show 0 ≤ dataLen _ a.mpdu; omega) rfl pulled newer (.inr (by
        rw [verified]
        rfl))
    exact ⟨data,taken,rfl⟩

theorem selected_checked (selected : txHSelectKey mfp m = true) (fragment : FragmentOf m f) : Checked (setProtected f.hdr) := by
  obtain ⟨kind,_⟩ := fragment
  unfold Checked setProtected
  rcases Bool.or_eq_true_iff.mp selected with data | mgmt
  · left
    unfold isData
    rw [protected_mask _ (by decide),mask_within kind (by decide)]
    have type : m.hdr.frameControl &&& fctlFtype = 0x0008 := by
      rw [show fctlFtype = (fctlFtype ||| 0x0040) &&& fctlFtype by decide,← UInt16.and_assoc,eq_of_beq data]
      decide
    rw [type]
    decide
  right
  simp only [Bool.and_eq_true] at mgmt
  obtain ⟨⟨mgmt,_⟩,robust⟩ := mgmt
  have type : f.hdr.frameControl &&& fctlFtype = 0 := (mask_within kind (by decide)).trans (eq_of_beq mgmt)
  refine ⟨(protected_hdrlen _).trans (mgmt_hdrlen type),?_⟩
  unfold isDisassoc isDeauth isAction
  rw [protected_mask _ (by decide),kind,protected_set]
  unfold isRobustMgmtFrame isDisassoc isDeauth isAction at robust
  simp only at robust
  split at robust
  · cases robust
  · split at robust
    case isTrue leave =>
      rcases Bool.or_eq_true_iff.mp leave with disassoc | deauth
      · exact .inl disassoc
      · exact .inr (.inl deauth)
    case isFalse =>
      split at robust
      case isTrue action => exact .inr (.inr ⟨action,rfl⟩)
      case isFalse => cases robust

def Origin (k : Setup) (good : Mpdu → Prop) (f : Mpdu) : Prop := ∃ p m, Sealed k f p m ∧ good m

structure Ordered (k : Setup) (good : Mpdu → Prop) (init : Nat) (txPn : UInt64) (frames : List Mpdu) : Prop where
  origin : ∀ f ∈ frames, Origin k good f
  rising : frames.Pairwise fun a b => pn a < pn b
  bounds : ∀ f ∈ frames, init < pn f ∧ pn f ≤ txPn.toNat
  least : init ≤ txPn.toNat

theorem Ordered.append (one : Ordered k good init mid frames) (two : Ordered k good mid.toNat last more) :
    Ordered k good init last (frames ++ more) := by
  refine ⟨?_,List.pairwise_append.mpr ⟨one.rising,two.rising,?_⟩,?_,Nat.le_trans one.least two.least⟩
  · intro f held
    rcases List.mem_append.mp held with before | after
    · exact one.origin f before
    · exact two.origin f after
  · intro f held g held'
    have upper := (one.bounds f held).2
    have lower := (two.bounds g held').1
    omega
  · intro f held
    rcases List.mem_append.mp held with before | after
    · exact ⟨(one.bounds f before).1,Nat.le_trans (one.bounds f before).2 two.least⟩
    · exact ⟨Nat.lt_of_le_of_lt one.least (two.bounds f after).1,(two.bounds f after).2⟩

theorem encryptSkb_numbered (numbered : encryptSkb aead c keyId txPn skb = .numbered txPn' f) :
    txPn' = txPn + 1 ∧ f = encryptMpdu aead c skb.stack (pnOf (txPn + 1)) keyId skb.mpdu := by
  unfold encryptSkb at numbered
  simp only at numbered
  repeat' split at numbered
  all_goals cases numbered
  all_goals exact ⟨rfl,rfl⟩

theorem encryptSkbs_ordered (good : Mpdu → Prop) (small : txPn.toNat + skbs.length < 2 ^ 48)
    (goods : ∀ skb ∈ skbs, good {skb.mpdu with hdr := setProtected skb.mpdu.hdr}) :
    (encryptSkbs k.aead k.cipher k.keyId skbs txPn).1.toNat ≤ txPn.toNat + skbs.length ∧
    Ordered k good txPn.toNat (encryptSkbs k.aead k.cipher k.keyId skbs txPn).1
      ((encryptSkbs k.aead k.cipher k.keyId skbs txPn).2.getD []) := by
  induction skbs generalizing txPn with
  | nil => exact ⟨Nat.le_refl _,nofun,.nil,nofun,Nat.le_refl _⟩
  | cons skb skbs ih =>
    rw [List.length_cons] at small ⊢
    have others := fun skb held => goods skb (List.mem_cons_of_mem _ held)
    simp only [encryptSkbs]
    split
    · exact ⟨Nat.le_add_right _ _,nofun,.nil,nofun,Nat.le_refl _⟩
    · obtain ⟨bound,rest⟩ := ih (show txPn.toNat + skbs.length < 2 ^ 48 by omega) others
      exact ⟨by omega,rest⟩
    case h_3 f numbered =>
      obtain ⟨rfl,made⟩ := encryptSkb_numbered numbered
      have next : (txPn + 1).toNat = txPn.toNat + 1 := by
        rw [UInt64.toNat_add]
        exact Nat.mod_eq_of_lt (by simp; omega)
      obtain ⟨_,rest⟩ := ih (show (txPn + 1).toNat + skbs.length < 2 ^ 48 by omega) others
      have genuine : Sealed k f (txPn + 1) {skb.mpdu with hdr := setProtected skb.mpdu.hdr} := ⟨skb.stack,made⟩
      have number := sealed_pn genuine (by omega)
      have first : Ordered k good txPn.toNat (txPn + 1) [f] := by
        refine ⟨?_,List.pairwise_singleton _ _,?_,by omega⟩
        · intro g held
          rw [List.mem_singleton.mp held]
          exact ⟨_,_,genuine,goods skb List.mem_cons_self⟩
        · intro g held
          rw [List.mem_singleton.mp held]
          omega
      refine ⟨by show (encryptSkbs _ _ _ skbs _).1.toNat ≤ _; omega,?_⟩
      cases out : (encryptSkbs k.aead k.cipher k.keyId skbs (txPn + 1)).2 with
      | none => exact ⟨nofun,.nil,nofun,Nat.le_trans (by omega) rest.least⟩
      | some =>
        rw [out] at rest
        exact first.append rest

def Forged (k : Setup) (m : Mpdu) : Prop := ∀ stack,
  k.aead.decrypt (k.cipher.nonce m.hdr (hdr2pn m.body)) (assoc stack m.hdr) (cipherText k.cipher m) (mic k.cipher m) = none

def Allowed (k : Setup) (w : World) : Event → Prop
  | .send m skbs => ∀ skb ∈ skbs, FragmentOf m skb.mpdu
  | .receive a => a.mpdu ∈ w.air ∨ Forged k a.mpdu

def Honest (k : Setup) : List Event → World → Prop
  | [],_ => True
  | e :: events,w => Allowed k w e ∧ Honest k events (step k w e)

theorem forged_refused {a : Arrival} (forged : Forged k a.mpdu) (key : Key) :
    (cryptoDecrypt k.aead k.cipher key (a.rxData k.aead k.cipher)).1.rxPn = key.rxPn ∧
    (cryptoDecrypt k.aead k.cipher key (a.rxData k.aead k.cipher)).2.isAccepted = false := by
  have closed : deviceOpen k.aead k.cipher a.mpdu = none := by
    unfold deviceOpen
    split
    · rfl
    · exact forged _
  have arrival : a.rxData k.aead k.cipher = ⟨a.mpdu,false,true,a.pulled,a.trimmed,a.stack⟩ := by
    unfold Arrival.rxData
    rw [closed,ite_self]
  rw [arrival]
  apply failed_unchanged rfl
  unfold aesDecrypt
  rw [forged,ite_self]

def sends : List Event → Nat
  | [] => 0
  | .send _ skbs :: events => skbs.length + sends events
  | .receive _ :: events => sends events

def offers (q : Nat) (arrivals : List Arrival) : List Arrival := arrivals.filter fun a => securityIdx a.mpdu.hdr = q

def Taken (init : Nat) (q : Nat) (w : World) : Prop :=
  ((offers q w.offered).Pairwise fun a b => pn a.mpdu < pn b.mpdu) →
    onQueue q w.accepted = ((offers q w.offered).filter Arrival.memory).map Arrival.mpdu ∧
    ∀ n, init < n → (∀ a ∈ offers q w.offered, pn a.mpdu < n) → (w.key.rxPn q).number < n

def Regular (m : Mpdu) : Prop := Checked m.hdr ∧ m.body ≠ [] ∧ hdrlen m.hdr.frameControl ≤ 32

theorem step_ordered (ordered : Ordered k good init w.txPn w.air) (small : w.txPn.toNat + sends (e :: events) < 2 ^ 48)
    (goods : ∀ m skbs, e = .send m skbs → txHSelectKey k.mfp m = true →
      ∀ skb ∈ skbs, good {skb.mpdu with hdr := setProtected skb.mpdu.hdr}) :
    Ordered k good init (step k w e).txPn (step k w e).air ∧ (step k w e).txPn.toNat + sends events < 2 ^ 48 := by
  cases e with
  | send m skbs =>
    simp only [sends] at small
    by_cases selected : txHSelectKey k.mfp m = true
    · obtain ⟨_,more⟩ := encryptSkbs_ordered (k := k) good (show w.txPn.toNat + skbs.length < 2 ^ 48 by omega)
        (goods m skbs rfl selected)
      simp only [step,if_pos selected]
      exact ⟨ordered.append more,by omega⟩
    · simp only [step,if_neg selected]
      exact ⟨ordered,by omega⟩
  | receive => exact ⟨ordered,small⟩

theorem offers_append (q : Nat) (arrivals : List Arrival) (a : Arrival) :
    offers q (arrivals ++ [a]) = offers q arrivals ++ if securityIdx a.mpdu.hdr = q then [a] else [] := by
  unfold offers
  by_cases mine : securityIdx a.mpdu.hdr = q
  · simp [mine]
  · simp [mine]

theorem rxData_memory (aead : Aead) (c : Cipher) (a : Arrival) :
    (a.rxData aead c).pulled = a.pulled ∧ (a.rxData aead c).trimmed = a.trimmed := by
  unfold Arrival.rxData
  split <;> exact ⟨rfl,rfl⟩

theorem other_queue (other : securityIdx a.mpdu.hdr ≠ q) :
    (step k w (.receive a)).key.rxPn q = w.key.rxPn q ∧ onQueue q (step k w (.receive a)).accepted = onQueue q w.accepted := by
  have frames : onQueue q (w.accepted ++ [a.mpdu]) = onQueue q w.accepted := by
    rw [onQueue_append,if_neg other,List.append_nil]
  simp only [step]
  constructor
  · rcases decrypt_cases k.aead k.cipher w.key (a.rxData k.aead k.cipher) with ⟨_,same,_⟩ | ⟨_,_,_,_,taken⟩
    · rw [same]
    · rw [taken,accept_rxPn,rxData_hdr]
      exact Function.update_of_ne (Ne.symm other) _ _
  · split
    · exact frames
    · rfl

theorem in_order (correct : Correct k.aead k.cipher) (ordered : Ordered k Regular init w.txPn w.air) {a : Arrival} (genuine : a.mpdu ∈ w.air)
    (newer : (w.key.rxPn (securityIdx a.mpdu.hdr)).number < pn a.mpdu) :
    (cryptoDecrypt k.aead k.cipher w.key (a.rxData k.aead k.cipher)).2.isAccepted = a.memory ∧
    ((cryptoDecrypt k.aead k.cipher w.key (a.rxData k.aead k.cipher)).1.rxPn = w.key.rxPn ∨
      (cryptoDecrypt k.aead k.cipher w.key (a.rxData k.aead k.cipher)).1.rxPn =
        Function.update w.key.rxPn (securityIdx a.mpdu.hdr) (hdr2pn a.mpdu.body)) := by
  obtain ⟨pulls,trims⟩ := rxData_memory k.aead k.cipher a
  cases pulled : a.pulled with
  | false =>
    rcases decrypt_cases k.aead k.cipher w.key (a.rxData k.aead k.cipher) with ⟨_,same,refused⟩ | ⟨_,got,_⟩
    · refine ⟨?_,.inl (by rw [same])⟩
      rw [refused,Arrival.memory,pulled,Bool.false_and]
    · exact nomatch (pulls.trans pulled).symm.trans got
  | true =>
    obtain ⟨p,m,sealed_,checked,some_body,short⟩ := ordered.origin _ genuine
    have hdr := sealed_hdr sealed_
    obtain ⟨_,taken,device⟩ := genuine_accepted correct sealed_ checked some_body short pulled (hdr ▸ newer)
    rw [taken,accept_accepted,accept_rxPn,rxData_hdr,rxData_pn,device,trims]
    refine ⟨?_,.inr rfl⟩
    rw [Arrival.memory,pulled,Bool.true_and,Bool.not_and,Bool.not_not]

theorem step_taken (correct : Correct k.aead k.cipher) (ordered : Ordered k Regular init w.txPn w.air) (taken : Taken init q w)
    (allowed : Allowed k w e) : Taken init q (step k w e) := by
  cases e with
  | send =>
    simp only [step]
    split
    · exact taken
    · exact taken
  | receive a =>
    by_cases genuine : a.mpdu ∈ w.air
    · have arrivals : (step k w (.receive a)).offered = w.offered ++ [a] := if_pos genuine
      unfold Taken
      rw [arrivals,offers_append]
      by_cases mine : securityIdx a.mpdu.hdr = q
      · subst mine
        rw [if_pos rfl]
        intro order
        obtain ⟨before,_,below⟩ := List.pairwise_append.mp order
        obtain ⟨equal,bound⟩ := taken before
        have newer := bound _ (ordered.bounds _ genuine).1 fun b held => below b held a (List.mem_singleton_self a)
        obtain ⟨result,counter⟩ := in_order correct ordered genuine newer
        constructor
        · show onQueue _ (if _ then _ else _) = _
          rw [result,List.filter_append,List.map_append,← equal]
          cases memory : a.memory with
          | true =>
            rw [if_pos rfl,onQueue_append,if_pos rfl]
            simp [memory]
          | false => simp [memory]
        · intro n above later
          show (Key.rxPn (cryptoDecrypt _ _ _ _).1 _).number < n
          rcases counter with same | moved
          · rw [same]
            exact bound n above fun b held => later b (List.mem_append_left _ held)
          · rw [moved,Function.update_self]
            exact later a (List.mem_append_right _ (List.mem_singleton_self a))
      · obtain ⟨counter,frames⟩ := other_queue (k := k) (w := w) mine
        rw [if_neg mine,List.append_nil,counter,frames]
        exact taken
    · have arrivals : (step k w (.receive a)).offered = w.offered := if_neg genuine
      obtain ⟨same,refused⟩ := forged_refused (allowed.resolve_left genuine) w.key
      have counter : (step k w (.receive a)).key.rxPn = w.key.rxPn := same
      have frames : (step k w (.receive a)).accepted = w.accepted := if_neg (by simp [refused])
      unfold Taken
      rw [arrivals,counter,frames]
      exact taken

-- The receive counter of all queues, from seq with the lowest byte first.
def keyAlloc (seq : Option Pn) : Key :=
  let pn := seq.getD (Vector.replicate 6 0)
  ⟨fun _ => #v[byteAt pn 5,byteAt pn 4,byteAt pn 3,byteAt pn 2,byteAt pn 1,byteAt pn 0],0⟩

def installed (seq : Option Pn) (txPn : UInt64) : World := ⟨txPn,[],keyAlloc seq,[],[]⟩

theorem run_ordered (correct : Correct k.aead k.cipher) (ordered : Ordered k Regular init w.txPn w.air) (taken : Taken init q w)
    (honest : Honest k events w) (small : w.txPn.toNat + sends events < 2 ^ 48)
    (regular : ∀ m skbs, .send m skbs ∈ events → ∀ skb ∈ skbs, skb.mpdu.body ≠ [] ∧ hdrlen skb.mpdu.hdr.frameControl ≤ 32) :
    Ordered k Regular init (run k events w).txPn (run k events w).air ∧ Taken init q (run k events w) := by
  induction events generalizing w with
  | nil => exact ⟨ordered,taken⟩
  | cons e events ih =>
    obtain ⟨allowed,later⟩ := honest
    obtain ⟨next,rest⟩ := step_ordered ordered small (by
      rintro m skbs rfl selected skb held
      obtain ⟨filled,short⟩ := regular m skbs List.mem_cons_self skb held
      exact ⟨selected_checked selected (allowed skb held),filled,Nat.le_trans (Nat.le_of_eq (protected_hdrlen _)) short⟩)
    exact ih next (step_taken correct ordered taken allowed) later rest fun m skbs held => regular m skbs (List.mem_cons_of_mem _ held)

theorem step_genuine (genuine : ∀ m ∈ w.accepted, m ∈ w.air) (allowed : Allowed k w e) :
    ∀ m ∈ (step k w e).accepted, m ∈ (step k w e).air := by
  cases e with
  | send =>
    simp only [step]
    split
    · exact fun f held => List.mem_append_left _ (genuine f held)
    · exact genuine
  | receive =>
    simp only [step]
    split
    case isTrue accepted =>
      intro m held
      rcases List.mem_append.mp held with before | new
      · exact genuine m before
      · rcases allowed with _ | forged
        · rwa [List.mem_singleton.mp new]
        · rw [(forged_refused forged w.key).2] at accepted
          cases accepted
    case isFalse => exact genuine

theorem run_genuine (genuine : ∀ m ∈ w.accepted, m ∈ w.air) (honest : Honest k events w) :
    ∀ m ∈ (run k events w).accepted, m ∈ (run k events w).air := by
  induction events generalizing w with
  | nil => exact genuine
  | cons e events ih => exact ih (step_genuine genuine honest.1) honest.2

theorem replay_protected (correct : Correct k.aead k.cipher) (seq : Option Pn) (txPn : UInt64)
    (behind : ∀ q, ((keyAlloc seq).rxPn q).number ≤ txPn.toNat) (honest : Honest k events (installed seq txPn))
    (numbers : txPn.toNat + sends events < 2 ^ 48) :
    (∀ q, (onQueue q (run k events (installed seq txPn)).accepted).Pairwise (fun a b => pn a < pn b) ∧
      (onQueue q (run k events (installed seq txPn)).accepted).Nodup) ∧
    (∀ m ∈ (run k events (installed seq txPn)).accepted, m ∈ (run k events (installed seq txPn)).air) ∧
    (∀ key rx, (hdr2pn rx.skb.body).number ≤ (key.rxPn (securityIdx rx.skb.hdr)).number ∨
        rx.decrypted = false ∧ aesDecrypt k.aead (k.cipher.nonce rx.skb.hdr (hdr2pn rx.skb.body)) (assoc rx.stack rx.skb.hdr)
          (cipherText k.cipher rx.skb) (mic k.cipher rx.skb) = none →
      (cryptoDecrypt k.aead k.cipher key rx).1.rxPn = key.rxPn) ∧
    ((∀ m skbs, .send m skbs ∈ events → ∀ skb ∈ skbs, skb.mpdu.body ≠ [] ∧ hdrlen skb.mpdu.hdr.frameControl ≤ 32) →
      ∀ q, ((offers q (run k events (installed seq txPn)).offered).map Arrival.mpdu).Sublist (run k events (installed seq txPn)).air →
        onQueue q (run k events (installed seq txPn)).accepted =
          ((offers q (run k events (installed seq txPn)).offered).filter Arrival.memory).map Arrival.mpdu) := by
  refine ⟨?_,run_genuine (w := installed seq txPn) nofun honest,?_,?_⟩
  · intro q
    have rising : Rising (fun _ => 0) (installed seq txPn) := fun _ => ⟨.nil,Nat.zero_le _,nofun⟩
    obtain ⟨order,_⟩ := run_rising rising k events q
    exact ⟨order,order.imp fun less same => Nat.ne_of_lt less (congrArg pn same)⟩
  · intro key rx failed
    rcases decrypt_cases k.aead k.cipher key rx with ⟨replays,same,_⟩ | ⟨newer,_,data,verified,_⟩
    · rw [same]
    · rcases failed with older | ⟨software,refused⟩
      · exact absurd newer (Nat.not_lt_of_le older)
      · exact (failed_unchanged software refused key).1
  · intro regular q sublist
    have start : Ordered k Regular txPn.toNat txPn [] := ⟨nofun,.nil,nofun,Nat.le_refl _⟩
    have none_taken : Taken txPn.toNat q (installed seq txPn) := fun _ => ⟨rfl,fun n above _ => Nat.lt_of_le_of_lt (behind q) above⟩
    obtain ⟨ordered,taken⟩ := run_ordered (w := installed seq txPn) correct start none_taken honest numbers regular
    have order := List.pairwise_map.mp (List.Pairwise.sublist sublist ordered.rising)
    exact (taken order).1

namespace Sample

def tag (nonce assoc data : List UInt8) : List UInt8 := (nonce ++ assoc ++ data).foldl (· + ·) 0 :: List.replicate 7 0

def checksum : Aead where
  encrypt nonce assoc data := (data,tag nonce assoc data)
  decrypt nonce assoc data mic := if mic = tag nonce assoc data then some data else none

theorem correct : Correct checksum ccmp :=
  ⟨fun _ _ _ => if_pos rfl,fun _ _ _ => rfl,fun _ _ _ => rfl⟩

def setup : Setup := ⟨checksum,ccmp,0,true⟩

def frame (fc : UInt16) (body : List UInt8) : Mpdu :=
  ⟨⟨fc,Vector.replicate 6 2,Vector.replicate 6 4,Vector.replicate 6 6,0x10,Vector.replicate 6 8,5⟩,body⟩

def sent (m : Mpdu) : Event := .send m [⟨m,true,none,fun _ => 0⟩]

def arrives (stack : UInt8) (w : World) : Event :=
  .receive ⟨w.air.headD (frame 0 []),false,true,true,fun _ => stack⟩

def exchange (m : Mpdu) (stack : UInt8) : World :=
  let w := step setup (installed none 0) (sent m)
  step setup w (arrives stack w)

end Sample

-- A frame that comes twice, and the frame with its number changed.
def Sample.repeated : List Event :=
  let w := Sample.exchange (Sample.frame 0x0108 [1,2,3]) 0
  let m := w.air.headD (Sample.frame 0 [])
  [Sample.sent (Sample.frame 0x0108 [1,2,3]),Sample.arrives 0 w,Sample.arrives 0 w,
    .receive ⟨{m with body := 7 :: m.body.tail},false,true,true,fun _ => 0⟩]

-- One is without a body, the other has a header longer than the array, with differing stacks.
theorem not_in_full : (Sample.exchange (Sample.frame 0x0108 []) 0).air.length = 1 ∧ (Sample.exchange (Sample.frame 0x0108 []) 0).accepted = [] ∧
    (Sample.exchange (Sample.frame 0x8388 [1]) 9).air.length = 1 ∧ (Sample.exchange (Sample.frame 0x8388 [1]) 9).accepted = [] ∧
    (Sample.exchange (Sample.frame 0x8388 [1]) 0).accepted.length = 1 := by
  decide

theorem replay_protected_sample :
    ((run Sample.setup Sample.repeated (installed none 0)).accepted.length = 1 ∧
      onQueue 0 (run Sample.setup Sample.repeated (installed none 0)).accepted =
        (run Sample.setup Sample.repeated (installed none 0)).air) ∧
    (onQueue 0 (run Sample.setup Sample.repeated (installed none 0)).accepted).Nodup := by
  have honest : Honest Sample.setup Sample.repeated (installed none 0) := by
    refine ⟨?_,.inl (by decide),.inl (by decide),.inr fun stack => ?_,trivial⟩
    · intro skb held
      rw [List.mem_singleton.mp held]
      exact ⟨rfl,fun filled => filled⟩
    · rw [assoc_stack (by decide) stack fun _ => 0]
      decide
  exact ⟨by decide,((replay_protected Sample.correct none 0 (fun _ => Nat.le_refl _) honest (by decide)).1 0).2⟩

end Mac80211.Wpa

import Mac80211.AesCmac
import Mac80211.Fragment
import Mac80211.WpaReplay

namespace Mac80211.Bip

open Ieee80211
open Fragment (le16 putLe16 le16_put)
open List (append_assoc)
open Wpa (Pn Encrypted RxResult memcmp memcmp_pn pnOf pnOf_number)

-- mac is given the AAD, the nonce of GMAC and what is before the MIC, which counts as zeros.
structure Cipher where
  micLen : Nat
  mac : List UInt8 → List UInt8 → List UInt8 → Vector UInt8 micLen

-- sizeof(struct ieee80211_mmie) or sizeof(struct ieee80211_mmie_16)
def Cipher.mmieLen (c : Cipher) : Nat := c.micLen + 10

def bipAad (h : Hdr) : List UInt8 :=
  let fc := h.frameControl &&& ~~~(fctlRetry ||| fctlPm ||| fctlMoreData)
  [fc.toUInt8,(fc >>> 8).toUInt8] ++ h.addr1.toList ++ h.addr2.toList ++ h.addr3.toList

def bipIpnSet64 (pn : UInt64) : List UInt8 :=
  [pn.toUInt8,(pn >>> 8).toUInt8,(pn >>> 16).toUInt8,(pn >>> 24).toUInt8,(pn >>> 32).toUInt8,(pn >>> 40).toUInt8]

def bipIpnSwap (s : List UInt8) : Pn := #v[s.getD 5 0,s.getD 4 0,s.getD 3 0,s.getD 2 0,s.getD 1 0,s.getD 0 0]

-- Up to the MIC.
def mmie (c : Cipher) (keyidx : UInt16) (pn64 : UInt64) : List UInt8 :=
  [0x4c,UInt8.ofNat (c.mmieLen - 2),keyidx.toUInt8,(keyidx >>> 8).toUInt8] ++ bipIpnSet64 pn64

def Cipher.mic (c : Cipher) (h : Hdr) (ipn : Pn) (data : List UInt8) : List UInt8 :=
  (c.mac (bipAad h) (h.addr2.toList ++ ipn.toList) data).toList

def sign (c : Cipher) (keyidx : UInt16) (pn64 : UInt64) (m : Mpdu) : List UInt8 :=
  c.mic m.hdr (bipIpnSwap (bipIpnSet64 pn64)) (m.body ++ mmie c keyidx pn64)
def protect (c : Cipher) (keyidx : UInt16) (pn64 : UInt64) (m : Mpdu) : Mpdu :=
  {m with body := m.body ++ mmie c keyidx pn64 ++ sign c keyidx pn64 m}

structure TxSkb where
  mpdu : Mpdu
  hwKey : Bool
  tailroom : Nat

def cryptoEncrypt (c : Cipher) (keyidx : UInt16) (txPn : UInt64) (skb : TxSkb) : Encrypted :=
  if skb.hwKey then .device
  else if skb.tailroom < c.mmieLen then .error
  else .numbered (txPn + 1) (protect c keyidx (txPn + 1) skb.mpdu)

structure Key where
  rxPn : Pn
  replays : UInt32
  icverrors : UInt32

def tail (n : Nat) (m : Mpdu) : List UInt8 := m.body.drop (m.body.length - n)
def ipn (c : Cipher) (m : Mpdu) : Pn := bipIpnSwap ((tail c.mmieLen m).drop 4)
def verified (c : Cipher) (m : Mpdu) : Bool := c.mic m.hdr (ipn c m) (m.body.take (m.body.length - c.micLen)) == (tail c.mmieLen m).drop 10

-- decrypted: the device has verified the MIC.
def cryptoDecrypt (c : Cipher) (key : Key) (decrypted : Bool) (m : Mpdu) : Key × RxResult :=
  let mmie := tail c.mmieLen m
  if !isMgmt m.hdr.frameControl then (key,.notEncrypted)
  else if m.body.length < c.mmieLen then (key,.dropUnusable)
  else if mmie.getD 0 0 != 0x4c || mmie.getD 1 0 != UInt8.ofNat (c.mmieLen - 2) then (key,.dropUnusable)
  else if memcmp (ipn c m).toList key.rxPn.toList ≤ 0 then ({key with replays := key.replays + 1},.dropUnusable)
  else if !decrypted && !verified c m then ({key with icverrors := key.icverrors + 1},.dropUnusable)
  else ({key with rxPn := ipn c m},.accepted {m with body := m.body.take (m.body.length - c.mmieLen)})

def keyidxAt (n : Nat) (m : Mpdu) : Option UInt16 :=
  let mmie := tail n m
  if mmie.getD 0 0 == 0x4c && mmie.getD 1 0 == UInt8.ofNat (n - 2) then some (le16 mmie 2) else none

def getMmieKeyidx (m : Mpdu) : Option UInt16 :=
  if m.body.length < 18 || !isMulticastEtherAddr m.hdr.addr1 || !isRobustMgmtFrame m then none
  else (keyidxAt 18 m).or (if m.body.length < 26 then none else keyidxAt 26 m)

-- The frames that are protected here, as given and as sent.
def sent (c : Cipher) (keyidx : UInt16) : UInt64 → List TxSkb → List (Mpdu × Mpdu)
  | _,[] => []
  | txPn,skb :: skbs =>
    match cryptoEncrypt c keyidx txPn skb with
    | .numbered txPn m => (skb.mpdu,m) :: sent c keyidx txPn skbs
    | _ => sent c keyidx txPn skbs

-- One frame, and what goes on.
def hear (c : Cipher) (s : Key × List Mpdu) (air : Bool × Mpdu) : Key × List Mpdu :=
  match cryptoDecrypt c s.1 air.1 air.2 with
  | (key,.accepted m) => (key,s.2 ++ [m])
  | (key,_) => (key,s.2)


section
variable (c : Cipher) (keyidx : UInt16) (pn64 : UInt64) (m : Mpdu)

theorem protect_ends :
    (protect c keyidx pn64 m).body.length = m.body.length + c.mmieLen ∧
      tail c.mmieLen (protect c keyidx pn64 m) = mmie c keyidx pn64 ++ sign c keyidx pn64 m := by
  have long : (protect c keyidx pn64 m).body.length = m.body.length + c.mmieLen := by
    simp [protect,sign,mmie,Cipher.mic,Cipher.mmieLen,bipIpnSet64]
  refine ⟨long,?_⟩
  rw [tail,long,Nat.add_sub_cancel,protect]
  exact (append_assoc ..).symm ▸ List.drop_left

theorem protect_ipn : ipn c (protect c keyidx pn64 m) = pnOf pn64 := by
  rw [ipn,(protect_ends ..).2]
  rfl

theorem protect_verified : verified c (protect c keyidx pn64 m) = true := by
  have before : m.body.length + c.mmieLen - c.micLen = (m.body ++ mmie c keyidx pn64).length := by
    simp [mmie,Cipher.mmieLen,bipIpnSet64]
    omega
  have data : (protect c keyidx pn64 m).body.take (m.body ++ mmie c keyidx pn64).length = m.body ++ mmie c keyidx pn64 := List.take_left
  rw [verified,(protect_ends ..).1,before,data,protect_ipn,(protect_ends ..).2]
  exact beq_self_eq_true _

end

theorem hear_protect (mgmt : isMgmt m.hdr.frameControl = true) (newer : key.rxPn.number < (pnOf pn64).number) (decrypted : Bool) (out : List Mpdu) :
    hear c (key,out) (decrypted,protect c keyidx pn64 m) = ({key with rxPn := pnOf pn64},out ++ [m]) := by
  have fresh := fun old => Nat.not_le.mpr newer ((memcmp_pn (pnOf pn64) key.rxPn).mp old)
  have body : (protect c keyidx pn64 m).body.take m.body.length = m.body := by rw [protect,append_assoc,List.take_left]
  have taken : cryptoDecrypt c key decrypted (protect c keyidx pn64 m) = ({key with rxPn := pnOf pn64},.accepted m) := by
    rw [cryptoDecrypt,show (protect c keyidx pn64 m).hdr = m.hdr from rfl,mgmt,if_neg (by decide),(protect_ends ..).1,if_neg (by omega),
      (protect_ends ..).2,if_neg (by simp [mmie]),protect_ipn,if_neg fresh,protect_verified,if_neg (by simp),Nat.add_sub_cancel,body]
  rw [hear,taken]

theorem hear_cases (c : Cipher) (key : Key) (out : List Mpdu) (decrypted : Bool) (f : Mpdu) :
    (∃ key', hear c (key,out) (decrypted,f) = (key',out) ∧ key'.rxPn = key.rxPn) ∨
      isMgmt f.hdr.frameControl = true ∧ key.rxPn.number < (ipn c f).number ∧ (decrypted = true ∨ verified c f = true) := by
  unfold hear cryptoDecrypt
  dsimp only
  split_ifs with notMgmt _ _ old untrusted
  · exact .inl ⟨_,rfl,rfl⟩
  · exact .inl ⟨_,rfl,rfl⟩
  · exact .inl ⟨_,rfl,rfl⟩
  · exact .inl ⟨_,rfl,rfl⟩
  · exact .inl ⟨_,rfl,rfl⟩
  · rw [memcmp_pn,Nat.not_le] at old
    refine .inr ⟨by simpa using notMgmt,old,?_⟩
    cases decrypted with
    | true => exact .inl rfl
    | false => simpa using untrusted

theorem next_number (txPn : UInt64) (last : txPn.toNat + 1 < 2 ^ 48) : (txPn + 1).toNat = txPn.toNat + 1 ∧ (pnOf (txPn + 1)).number = txPn.toNat + 1 := by
  have next : (txPn + 1).toNat = txPn.toNat + 1 := by
    rw [UInt64.toNat_add]
    exact Nat.mod_eq_of_lt (Nat.lt_trans last (by decide))
  exact ⟨next,(pnOf_number (next ▸ last)).trans next⟩

theorem sent_cases (c : Cipher) (keyidx : UInt16) (txPn : UInt64) (skb : TxSkb) (skbs : List TxSkb) : sent c keyidx txPn (skb :: skbs) = sent c keyidx txPn skbs ∨
    sent c keyidx txPn (skb :: skbs) = (skb.mpdu,protect c keyidx (txPn + 1) skb.mpdu) :: sent c keyidx (txPn + 1) skbs := by
  rw [sent,cryptoEncrypt]
  split_ifs
  · exact .inl rfl
  · exact .inl rfl
  · exact .inr rfl

theorem sent_number (small : txPn.toNat + skbs.length < 2 ^ 48) (there : (sent c keyidx txPn skbs)[i]? = some (m,f)) :
    ∃ pn64, f = protect c keyidx pn64 m ∧ (pnOf pn64).number = txPn.toNat + i + 1 := by
  induction skbs generalizing txPn i with
  | nil => cases there
  | cons skb skbs ih =>
    rw [List.length_cons] at small
    rcases sent_cases c keyidx txPn skb skbs with same | first
    · exact ih (by omega) (same ▸ there)
    · obtain ⟨next,number⟩ := next_number txPn (by omega)
      rw [first] at there
      cases i with
      | zero =>
        cases there
        exact ⟨_,rfl,number⟩
      | succ i =>
        obtain ⟨pn64,made,number⟩ := ih (by omega) there
        exact ⟨pn64,made,by omega⟩

-- Lost, repeated and reordered at will, what is accepted comes in the order in which it was given to be sent, and once.
theorem bip_in_order (c : Cipher) (keyidx : UInt16) (txPn : UInt64) (skbs : List TxSkb) (key : Key) (heard : List (Bool × Mpdu))
    (small : txPn.toNat + skbs.length < 2 ^ 48)
    (genuine : ∀ air ∈ heard, air.1 = true ∨ verified c air.2 = true → ∃ m, (m,air.2) ∈ sent c keyidx txPn skbs) :
    (heard.foldl (hear c) (key,[])).2.Sublist ((sent c keyidx txPn skbs).map Prod.fst) := by
  suffices upTo : ∀ key out, out.Sublist (((sent c keyidx txPn skbs).map Prod.fst).take (key.rxPn.number - txPn.toNat)) →
      (heard.foldl (hear c) (key,out)).2.Sublist ((sent c keyidx txPn skbs).map Prod.fst) from upTo key [] (List.nil_sublist _)
  induction heard with
  | nil => exact fun _ _ upTo => upTo.trans (List.take_sublist ..)
  | cons air heard ih =>
    intro key out upTo
    rw [List.forall_mem_cons] at genuine
    rw [List.foldl_cons]
    obtain ⟨decrypted,f⟩ := air
    rcases hear_cases c key out decrypted f with ⟨_,same,kept⟩ | ⟨mgmt,newer,trusted⟩
    · rw [same]
      exact ih genuine.2 _ _ (kept ▸ upTo)
    · obtain ⟨m,member⟩ := genuine.1 trusted
      obtain ⟨i,there⟩ := List.mem_iff_getElem?.mp member
      obtain ⟨pn64,made,number⟩ := sent_number small there
      subst made
      rw [protect_ipn] at newer
      rw [hear_protect (m := m) mgmt newer]
      refine ih genuine.2 _ _ ?_
      rw [number,show txPn.toNat + i + 1 - txPn.toNat = i + 1 by omega,List.take_add_one,List.getElem?_map,there]
      exact (upTo.trans (List.take_sublist_take_left (by omega))).append (List.Sublist.refl [m])

def aesCmac (enc : Cmac.Block → Cmac.Block) : Cipher where
  micLen := AesCmac.cmacTlen
  mac aad _ data :=
    let mic := AesCmac.ieee80211AesCmac enc (aad.getD · 0) (data.getD · 0) (fun _ => 0) ⟨fun _ _ => 0,fun _ => 0⟩ (data.length + AesCmac.cmacTlen)
    Vector.ofFn fun i => (mic.getD []).getD i 0

def sampleSkb (data : UInt8) : TxSkb := ⟨⟨⟨0x00d0,macAddr 2 0 0 0 0 1,macAddr 2 0 0 0 0 2,macAddr 2 0 0 0 0 2,0,macAddr 0 0 0 0 0 0,0⟩,[data]⟩,false,18⟩
def sampleSent : List (Mpdu × Mpdu) := sent (aesCmac id) 4 0 [sampleSkb 1,sampleSkb 2]
def sampleKey : Key := ⟨#v[0,0,0,0,0,0],0,0⟩

theorem bip_in_order_sample : ((sampleSent.reverse.map fun p => (false,p.2)).foldl (hear (aesCmac id)) (sampleKey,[])).2.Sublist (sampleSent.map Prod.fst) :=
  bip_in_order (aesCmac id) 4 0 [sampleSkb 1,sampleSkb 2] sampleKey _ (by decide) fun _ heard _ => by
    obtain ⟨p,member,rfl⟩ := List.mem_map.mp heard
    exact ⟨p.1,List.mem_reverse.mp member⟩

-- All that comes, and comes in order, is accepted.
theorem bip_delivers {part : List (Mpdu × Mpdu)} (sub : part.Sublist (sent c keyidx txPn skbs)) (small : txPn.toNat + skbs.length < 2 ^ 48)
    (mgmt : ∀ p ∈ part, isMgmt p.1.hdr.frameControl = true) (behind : key.rxPn.number ≤ txPn.toNat) (decrypted : Bool) (out : List Mpdu) :
    ((part.map fun p => (decrypted,p.2)).foldl (hear c) (key,out)).2 = out ++ part.map Prod.fst := by
  induction skbs generalizing txPn key out part with
  | nil =>
    cases sub
    exact (List.append_nil out).symm
  | cons skb skbs ih =>
    rw [List.length_cons] at small
    rcases sent_cases c keyidx txPn skb skbs with same | first
    · exact ih (same ▸ sub) (by omega) mgmt behind out
    · obtain ⟨next,number⟩ := next_number txPn (by omega)
      rw [first] at sub
      cases sub with
      | cons _ sub => exact ih sub (by omega) mgmt (by omega) out
      | cons_cons _ sub =>
        rw [List.forall_mem_cons] at mgmt
        rw [List.map_cons,List.foldl_cons,hear_protect mgmt.1 (by omega),ih sub (by omega) mgmt.2 (by dsimp only; omega)]
        exact append_assoc ..

theorem bip_delivers_sample : ((sampleSent.map fun p => (false,p.2)).foldl (hear (aesCmac id)) (sampleKey,[])).2 = [] ++ sampleSent.map Prod.fst :=
  bip_delivers (.refl sampleSent) (by decide) (by decide) (by decide) false []

theorem keyidxAt_protect (c : Cipher) (keyidx : UInt16) (pn64 : UInt64) (m : Mpdu) : keyidxAt c.mmieLen (protect c keyidx pn64 m) = some keyidx := by
  have index : ∀ a b rest, le16 (a :: b :: keyidx.toUInt8 :: (keyidx >>> 8).toUInt8 :: rest) 2 = keyidx := fun a b rest =>
    show le16 (putLe16 (a :: b :: 0 :: 0 :: rest) 2 keyidx) 2 = keyidx from le16_put keyidx (by simp)
  rw [keyidxAt,(protect_ends ..).2,mmie]
  exact (if_pos (by simp)).trans (congrArg some (index ..))

-- A MIC of 16 bytes is behind what is first looked at as an element with one of 8.
theorem keyidx_found (wide : c.micLen = 8 ∨ c.micLen = 16) (group : isMulticastEtherAddr m.hdr.addr1 = true)
    (robust : isRobustMgmtFrame (protect c keyidx pn64 m) = true) :
    getMmieKeyidx (protect c keyidx pn64 m) = some keyidx ↔
      (c.micLen = 16 → (pn64 >>> 32).toUInt8 = 0x4c → (pn64 >>> 40).toUInt8 = 16 →
        le16 (sign c keyidx pn64 m) 0 = keyidx) := by
  have found := keyidxAt_protect c keyidx pn64 m
  obtain ⟨long,ends⟩ := protect_ends c keyidx pn64 m
  rw [getMmieKeyidx,show (protect c keyidx pn64 m).hdr = m.hdr from rfl,group,robust,long]
  rcases wide with eight | wide
  · rw [show c.mmieLen = 18 by rw [Cipher.mmieLen,eight]] at found ⊢
    simp [found,eight]
  · have size : c.mmieLen = 26 := by rw [Cipher.mmieLen,wide]
    have first : keyidxAt 18 (protect c keyidx pn64 m) =
        if (pn64 >>> 32).toUInt8 == 0x4c && (pn64 >>> 40).toUInt8 == 16 then some (le16 (sign c keyidx pn64 m) 0) else none := by
      rw [keyidxAt,tail,long,show m.body.length + c.mmieLen - 18 = m.body.length + c.mmieLen - c.mmieLen + 8 by omega,← List.drop_drop,
        ← long,← tail,ends]
      rfl
    rw [size] at found ⊢
    rw [found,first,if_neg (by simp),if_neg (show ¬m.body.length + 26 < 26 by omega)]
    simp only [Bool.and_eq_true,beq_iff_eq]
    split_ifs with misread
    · simp [wide,misread]
    · exact iff_of_true rfl fun _ high low => absurd ⟨high,low⟩ misread

theorem keyidx_found_sample : getMmieKeyidx (protect (aesCmac id) 4 1 ⟨⟨0x00d0,macAddr 1 0 0 0 0 1,macAddr 2 0 0 0 0 2,macAddr 2 0 0 0 0 2,0,macAddr 0 0 0 0 0 0,0⟩,[8]⟩) =
    some 4 := (keyidx_found (.inl rfl) (by decide) (by decide)).mpr (by decide)

end Mac80211.Bip

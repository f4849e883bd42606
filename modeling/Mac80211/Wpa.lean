import Mac80211.Ieee80211

namespace Mac80211.Wpa
open Ieee80211

def hdrLen : Nat := 8

abbrev Pn := Vector UInt8 6

def pnOf (pn64 : UInt64) : Pn :=
  #v[(pn64 >>> 40).toUInt8,(pn64 >>> 32).toUInt8,(pn64 >>> 24).toUInt8,(pn64 >>> 16).toUInt8,(pn64 >>> 8).toUInt8,pn64.toUInt8]

def pn2hdr (pn : Pn) (keyId : UInt8) : List UInt8 := 
  [byteAt pn 5,byteAt pn 4,0,(0x20 : UInt8) ||| (keyId <<< 6),byteAt pn 3,byteAt pn 2,byteAt pn 1,byteAt pn 0]

def hdr2pn (hdr : List UInt8) : Pn := #v[hdr.getD 7 0,hdr.getD 6 0,hdr.getD 5 0,hdr.getD 4 0,hdr.getD 1 0,hdr.getD 0 0]

def memcmp : List UInt8 → List UInt8 → Int
  | a :: as,b :: bs => if a = b then memcmp as bs else (a.toNat : Int) - b.toNat
  | _,_ => 0

structure Aead where
  encrypt : List UInt8 → List UInt8 → List UInt8 → List UInt8 × List UInt8
  decrypt : List UInt8 → List UInt8 → List UInt8 → List UInt8 → Option (List UInt8)

-- With the length in its first two bytes.
def aadBlock (h : Hdr) : List UInt8 :=
  let lenA := hdrlen h.frameControl - 2
  let fc := h.frameControl &&& ~~~(fctlRetry ||| fctlPm ||| fctlMoreData)
  let fc := if isMgmt h.frameControl then fc else fc &&& ~~~0x0070
  let fc := fc ||| fctlProtected
  [(UInt16.ofNat lenA >>> 8).toUInt8,(UInt16.ofNat lenA).toUInt8,fc.toUInt8,(fc >>> 8).toUInt8] ++
    h.addr1.toList ++ h.addr2.toList ++ h.addr3.toList ++ [h.seqCtrl.toUInt8 &&& 0x0f,0] ++
    if hasA4 h.frameControl then h.addr4.toList ++ [qosTid h,0] else [qosTid h,0,0,0,0,0,0,0]

-- The header without its first two bytes. For a longer one the stack behind the 32 bytes of aad is read.
def assoc (stack : Nat → UInt8) (h : Hdr) : List UInt8 :=
  (List.range (hdrlen h.frameControl - 2)).map fun i => (aadBlock h).getD (2 + i) (stack i)

-- The part of b_0 before the bytes that the CCM layer writes.
def ccmpNonce (h : Hdr) (pn : Pn) : List UInt8 :=
  [1,qosTid h ||| if isMgmt h.frameControl then 0x10 else 0] ++ h.addr2.toList ++ pn.toList

-- The part of j_0 that the GCM layer reads.
def gcmpNonce (h : Hdr) (pn : Pn) : List UInt8 := h.addr2.toList ++ pn.toList

structure Cipher where
  nonce : Hdr → Pn → List UInt8
  micLen : Nat

def ccmp : Cipher := ⟨ccmpNonce,8⟩
def ccmp256 : Cipher := ⟨ccmpNonce,16⟩
def gcmp : Cipher := ⟨gcmpNonce,16⟩

-- ieee80211_aes_ccm_decrypt and ieee80211_aes_gcm_decrypt refuse empty data.
def aesDecrypt (aead : Aead) (nonce assoc data mic : List UInt8) : Option (List UInt8) :=
  if data.length = 0 then none else aead.decrypt nonce assoc data mic

structure HwKey where
  generateIv : Bool
  putIvSpace : Bool
  generateIvMgmt : Bool

-- Whether there is room for the header and the check value, and the key of the device if it encrypts.
structure TxSkb where
  mpdu : Mpdu
  room : Bool
  hwKey : Option HwKey
  stack : Nat → UInt8

inductive Encrypted where
  | error
  | device
  | numbered (txPn : UInt64) (mpdu : Mpdu)

def encryptMpdu (aead : Aead) (c : Cipher) (stack : Nat → UInt8) (pn : Pn) (keyId : UInt8) (m : Mpdu) : Mpdu :=
  let sealed := aead.encrypt (c.nonce m.hdr pn) (assoc stack m.hdr) m.body
  {m with body := pn2hdr pn keyId ++ sealed.1 ++ sealed.2}

-- A device that is given a header encrypts as the code would.
def encryptSkb (aead : Aead) (c : Cipher) (keyId : UInt8) (txPn : UInt64) (skb : TxSkb) : Encrypted :=
  let fc := skb.mpdu.hdr.frameControl
  let numbered := .numbered (txPn + 1) (encryptMpdu aead c skb.stack (pnOf (txPn + 1)) keyId skb.mpdu)
  match skb.hwKey with
  | some hw =>
    if !hw.generateIv && !hw.putIvSpace && !(hw.generateIvMgmt && isMgmt fc) then .device
    else if !skb.room then .error
    else if hw.putIvSpace then .device
    else numbered
  | none => if !skb.room then .error else numbered

-- The frames that go out with a number of ours, or TX_DROP.
def encryptSkbs (aead : Aead) (c : Cipher) (keyId : UInt8) : List TxSkb → UInt64 → UInt64 × Option (List Mpdu)
  | [],txPn => (txPn,some [])
  | skb :: skbs,txPn =>
    match encryptSkb aead c keyId txPn {skb with mpdu := {skb.mpdu with hdr := setProtected skb.mpdu.hdr}} with
    | .error => (txPn,none)
    | .device => encryptSkbs aead c keyId skbs txPn
    | .numbered txPn m =>
      let rest := encryptSkbs aead c keyId skbs txPn
      (rest.1,rest.2.map (m :: ·))

-- Those it leaves a CCMP or GCMP key for.
def txHSelectKey (mfp : Bool) (m : Mpdu) : Bool :=
  isDataPresent m.hdr.frameControl || (isMgmt m.hdr.frameControl && mfp && isRobustMgmtFrame m)

structure Key where
  rxPn : Nat → Pn
  replays : UInt32

-- With RX_FLAG_DECRYPTED, and whether memory was found to make it linear and to trim it.
structure RxData where
  skb : Mpdu
  decrypted : Bool
  sta : Bool
  pulled : Bool
  trimmed : Bool
  stack : Nat → UInt8

-- RX_CONTINUE with a frame that was let through and one that was accepted.
inductive RxResult where
  | dropUnusable
  | notEncrypted
  | accepted (mpdu : Mpdu)

def RxResult.isAccepted : RxResult → Bool
  | .accepted _ => true
  | _ => false

def dataLen (c : Cipher) (m : Mpdu) : Int := (m.body.length : Int) - hdrLen - c.micLen

def cipherText (c : Cipher) (m : Mpdu) : List UInt8 := (m.body.drop hdrLen).take (dataLen c m).toNat
def mic (c : Cipher) (m : Mpdu) : List UInt8 := m.body.drop (m.body.length - c.micLen)

def accept (key : Key) (rx : RxData) (data : List UInt8) : Key × RxResult :=
  let key := {key with rxPn := Function.update key.rxPn (securityIdx rx.skb.hdr) (hdr2pn rx.skb.body)}
  -- A linear buffer is trimmed without memory.
  if rx.decrypted && !rx.trimmed then (key,.dropUnusable) else (key,.accepted {rx.skb with body := data})

def cryptoDecrypt (aead : Aead) (c : Cipher) (key : Key) (rx : RxData) : Key × RxResult :=
  let m := rx.skb
  if !isData m.hdr.frameControl && !isRobustMgmtFrame m then (key,.notEncrypted)
  else if !rx.sta || dataLen c m < 0 then (key,.dropUnusable)
  else if !rx.pulled then (key,.dropUnusable)
  else if memcmp (hdr2pn m.body).toList (key.rxPn (securityIdx m.hdr)).toList ≤ 0 then
    ({key with replays := key.replays + 1},.dropUnusable)
  else if rx.decrypted then accept key rx (cipherText c m)
  else
    match aesDecrypt aead (c.nonce m.hdr (hdr2pn m.body)) (assoc rx.stack m.hdr) (cipherText c m) (mic c m) with
    | none => (key,.dropUnusable)
    | some data => accept key rx data

def ieee80211CryptoCcmpDecrypt (aead : Aead) := cryptoDecrypt aead ccmp
def ieee80211CryptoCcmp256Decrypt (aead : Aead) := cryptoDecrypt aead ccmp256
def ieee80211CryptoGcmpDecrypt (aead : Aead) := cryptoDecrypt aead gcmp

end Mac80211.Wpa

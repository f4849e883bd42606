import Mac80211.SkBuff

namespace Mac80211.Ieee80211

-- The fourth address and QoS control are there only in the frames that have them.
structure Hdr where
  frameControl : UInt16
  addr1 : EthAddr
  addr2 : EthAddr
  addr3 : EthAddr
  seqCtrl : UInt16
  addr4 : EthAddr
  qosCtl : UInt16
deriving DecidableEq

-- A frame is a header of ieee80211_hdrlen bytes and what follows it.
structure Mpdu where
  hdr : Hdr
  body : List UInt8
deriving DecidableEq

def fctlFtype : UInt16 := 0x000c
def fctlStype : UInt16 := 0x00f0
def fctlToDs : UInt16 := 0x0100
def fctlFromDs : UInt16 := 0x0200
def fctlMoreFrags : UInt16 := 0x0400
def fctlRetry : UInt16 := 0x0800
def fctlPm : UInt16 := 0x1000
def fctlMoreData : UInt16 := 0x2000
def fctlProtected : UInt16 := 0x4000
def fctlOrder : UInt16 := 0x8000

def isMgmt (fc : UInt16) : Bool := fc &&& fctlFtype == 0x0000
def isCtl (fc : UInt16) : Bool := fc &&& fctlFtype == 0x0004
def isData (fc : UInt16) : Bool := fc &&& fctlFtype == 0x0008
def isDataQos (fc : UInt16) : Bool := fc &&& (fctlFtype ||| 0x0080) == 0x0088
def isDataPresent (fc : UInt16) : Bool := fc &&& (fctlFtype ||| 0x0040) == 0x0008
def isDisassoc (fc : UInt16) : Bool := fc &&& (fctlFtype ||| fctlStype) == 0x00a0
def isDeauth (fc : UInt16) : Bool := fc &&& (fctlFtype ||| fctlStype) == 0x00c0
def isAction (fc : UInt16) : Bool := fc &&& (fctlFtype ||| fctlStype) == 0x00d0
def hasA4 (fc : UInt16) : Bool := fc &&& (fctlToDs ||| fctlFromDs) == fctlToDs ||| fctlFromDs
def hasMoreFrags (fc : UInt16) : Bool := fc &&& fctlMoreFrags != 0
def hasProtected (fc : UInt16) : Bool := fc &&& fctlProtected != 0
def hasOrder (fc : UInt16) : Bool := fc &&& fctlOrder != 0

def hdrlen (fc : UInt16) : Nat :=
  if isData fc then
    (if hasA4 fc then 30 else 24) + if isDataQos fc then (if hasOrder fc then 6 else 2) else 0
  else if isCtl fc then
    if fc &&& 0x00e0 == 0x00c0 then 10 else 16
  else 24

def robustCategory (category : UInt8) : Bool := category != 4 && category != 7 && category != 15 && category != 127

def isRobustMgmtFrame (m : Mpdu) : Bool :=
  let fc := m.hdr.frameControl
  if hdrlen fc + m.body.length < 25 then false
  else if isDisassoc fc || isDeauth fc then true
  else if isAction fc then hasProtected fc || robustCategory (m.body.getD 0 0)
  else false

def isMulticastEtherAddr (addr : EthAddr) : Bool := addr[0] &&& 1 != 0

def qosTid (h : Hdr) : UInt8 := if isDataQos h.frameControl then h.qosCtl.toUInt8 &&& 0x0f else 0

def numTids : Nat := 16

def securityIdx (h : Hdr) : Nat :=
  if isDataQos h.frameControl then (qosTid h).toNat
  else if isMgmt h.frameControl then numTids
  else 0

def setProtected (h : Hdr) : Hdr := {h with frameControl := h.frameControl ||| fctlProtected}

theorem or_and (a b c : UInt16) : (a ||| b) &&& c = (a &&& c) ||| (b &&& c) := by
  apply UInt16.toBitVec_inj.mp
  apply BitVec.eq_of_getLsbD_eq
  intro i _
  simp [Bool.and_or_distrib_right]

theorem protected_mask (fc : UInt16) (clear : fctlProtected &&& mask = 0) : (fc ||| fctlProtected) &&& mask = fc &&& mask := by
  rw [or_and,clear,UInt16.or_zero]

theorem mask_within {small : UInt16} (same : a &&& big = b &&& big) (within : big &&& small = small) :
    a &&& small = b &&& small := by
  rw [← within,← UInt16.and_assoc,same,UInt16.and_assoc]

theorem or_absorb (a mask : UInt16) : (a ||| mask) &&& mask = mask := by
  apply UInt16.toBitVec_inj.mp
  simp only [UInt16.toBitVec_and,UInt16.toBitVec_or]
  apply BitVec.eq_of_getLsbD_eq
  intro i _
  simp only [BitVec.getLsbD_or,BitVec.getLsbD_and]
  cases mask.toBitVec.getLsbD i with
  | false => rw [Bool.and_false]
  | true => rw [Bool.or_true,Bool.and_true]

theorem protected_set (fc : UInt16) : hasProtected (fc ||| fctlProtected) = true := by
  unfold hasProtected
  rw [or_absorb]
  rfl

theorem protected_hdrlen (fc : UInt16) : hdrlen (fc ||| fctlProtected) = hdrlen fc := by
  unfold hdrlen isData hasA4 isDataQos hasOrder isCtl
  rw [protected_mask fc (by decide),protected_mask fc (by decide),protected_mask fc (by decide),protected_mask fc (by decide),
    protected_mask fc (by decide)]

def Checked (h : Hdr) : Prop :=
  isData h.frameControl = true ∨
    hdrlen h.frameControl = 24 ∧ (isDisassoc h.frameControl = true ∨ isDeauth h.frameControl = true ∨
      isAction h.frameControl = true ∧ hasProtected h.frameControl = true)

theorem checked_encrypted (checked : Checked h) (some_body : 0 < body.length) :
    isData h.frameControl = true ∨ isRobustMgmtFrame ⟨h,body⟩ = true := by
  rcases checked with data | ⟨length,kind⟩
  · exact .inl data
  right
  unfold isRobustMgmtFrame
  simp only [length]
  rw [if_neg (by omega)]
  rcases kind with leave | leave | ⟨_,bit⟩
  · simp [leave]
  · simp [leave]
  · split
    · rfl
    · simp [bit]

theorem mgmt_hdrlen (mgmt : fc &&& fctlFtype = 0) : hdrlen fc = 24 := by
  unfold hdrlen isData isCtl
  rw [mgmt]
  rfl

-- A piece has the type and subtype of its frame, and none of a frame with a body is empty.
def FragmentOf (m f : Mpdu) : Prop :=
  f.hdr.frameControl &&& (fctlFtype ||| fctlStype) = m.hdr.frameControl &&& (fctlFtype ||| fctlStype) ∧
    (m.body ≠ [] → f.body ≠ [])

end Mac80211.Ieee80211

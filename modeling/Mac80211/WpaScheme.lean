import Mac80211.Guarded
import Mac80211.Ieee80211

namespace Mac80211.WpaScheme
open Ieee80211 Guarded

structure CipherScheme where
  cipher : UInt32
  hdrLen : UInt8
  pnLen : UInt8
  pnOff : UInt8
  keyIdxOff : UInt8
  keyIdxMask : UInt8
  keyIdxShift : UInt8
  micLen : UInt8

def maxPnLen : Nat := 16

structure Sta where
  cipherScheme : Option CipherScheme

-- With RX_FLAG_DECRYPTED, and whether memory was found to make it linear.
structure RxData where
  skb : Skb
  sta : Option Sta
  decrypted : Bool
  linearized : Bool

inductive RxResult where
  | continue
  | dropUnusable

-- With key->u.gen.rx_pn, whose rows follow one another in memory, and the frame afterwards.
structure Outcome where
  result : RxResult
  rxPn : Nat → UInt8
  skb : Skb

def frameControl (s : Skb) : UInt16 := (s.byte 0).toUInt16 ||| ((s.byte 1).toUInt16 <<< 8)

def qosTidMask : UInt8 := 0x0f
def getQosCtl (fc : UInt16) : Nat := if hasA4 fc then 30 else 24
def csTid (s : Skb) : Nat := if isDataQos (frameControl s) then (s.byte (getQosCtl (frameControl s)) &&& qosTidMask).toNat else 0

-- Where it is in the frame, and in its row of rx_pn.
def pnUses (cs : CipherScheme) (s : Skb) (i : Nat) : List (Nat × Nat) :=
  [(hdrlen (frameControl s) + cs.pnOff.toNat + i,s.len),(i,maxPnLen)]

def skbPn (cs : CipherScheme) (s : Skb) (i : Nat) : UInt8 := s.byte (hdrlen (frameControl s) + cs.pnOff.toNat + i)
def rowPn (rxPn : Nat → UInt8) (tid i : Nat) : UInt8 := rxPn (maxPnLen * tid + i)

def csPnCompare (strict : Bool) (uses : Nat → List (Nat × Nat)) (pn1 pn2 : Nat → UInt8) : Nat → Run Int
  | 0 => .done 0
  | i + 1 => (act strict (uses i) ()).bind fun _ =>
    if pn1 i < pn2 i then .done (-1) else if pn1 i > pn2 i then .done 1 else csPnCompare strict uses pn1 pn2 i

def storePn (rxPn : Nat → UInt8) (tid len : Nat) (pn : Nat → UInt8) : Nat → UInt8 := fun a =>
  if maxPnLen * tid ≤ a ∧ a < maxPnLen * tid + len then pn (a - maxPnLen * tid) else rxPn a

def skbMemmove (s : Skb) (n count : Nat) : Skb :=
  {s with mem := fun a => if s.data + n ≤ a ∧ a < s.data + n + count then s.mem (a - n) else s.mem a}

-- The header and the MIC are removed. A linear frame is trimmed without memory.
def csRemove (cs : CipherScheme) (s : Skb) : Skb :=
  let n := hdrlen (frameControl s)
  let s := skbTrim s (subU32 s.len cs.micLen.toNat)
  skbPull (skbMemmove s cs.hdrLen.toNat n) cs.hdrLen.toNat

-- Only a strict run stops at a byte outside of the frame received, or of the row of its queue.
def cryptoCsDecrypt (strict : Bool) (rxPn : Nat → UInt8) (rx : RxData) : Run Outcome :=
  let s := rx.skb
  let drop : Run Outcome := .done ⟨.dropUnusable,rxPn,s⟩
  (act strict [(0,s.len),(1,s.len)] (frameControl s)).bind fun fc =>
  match rx.sta.bind Sta.cipherScheme with
  | none => drop
  | some cs =>
    if !rx.decrypted then drop
    else if !isData fc then .done ⟨.continue,rxPn,s⟩
    else
      -- data_len, a negative int from 2^31 on
      let dataLen := subU32 (subU32 s.len (hdrlen fc)) cs.hdrLen.toNat
      if 2 ^ 31 ≤ dataLen then drop
      else
        (act strict (if isDataQos fc then [(getQosCtl fc,s.len)] else []) (csTid s)).bind fun tid =>
        if !rx.linearized then drop
        else
          (csPnCompare strict (pnUses cs s) (skbPn cs s) (rowPn rxPn tid) cs.pnLen.toNat).bind fun order =>
          if order ≤ 0 then drop
          else
            (act strict ((List.range cs.pnLen.toNat).flatMap (pnUses cs s))
              (storePn rxPn tid cs.pnLen.toNat (skbPn cs s))).bind fun rxPn =>
            (act strict ((List.range (hdrlen fc)).map fun i => (i,s.len)) (csRemove cs s)).bind fun s =>
            .done ⟨.continue,rxPn,s⟩

def pnValue (pn : Nat → UInt8) : Nat → Nat
  | 0 => 0
  | i + 1 => pnValue pn i + (pn i).toNat * 256 ^ i

def slice (s : Skb) (lo n : Nat) : List UInt8 := (List.range n).map fun i => s.byte (lo + i)
def frame (s : Skb) : List UInt8 := slice s 0 s.len

def KeepsFrame (cs : CipherScheme) (s after : Skb) : Prop :=
  ∃ header security payload mic : List UInt8, header.length = hdrlen (frameControl s) ∧ security.length = cs.hdrLen.toNat ∧
    mic.length = cs.micLen.toNat ∧ frame s = header ++ security ++ payload ++ mic ∧ frame after = header ++ payload

structure Advanced (cs : CipherScheme) (s : Skb) (rxPn after : Nat → UInt8) : Prop where
  taken : ∀ i < cs.pnLen.toNat, rowPn after (csTid s) i = skbPn cs s i
  greater : pnValue (rowPn rxPn (csTid s)) cs.pnLen.toNat < pnValue (rowPn after (csTid s)) cs.pnLen.toNat
  others : ∀ tid ≠ csTid s, ∀ i < maxPnLen, rowPn after tid i = rowPn rxPn tid i

structure Fits (cs : CipherScheme) (s : Skb) : Prop where
  mic : hdrlen (frameControl s) + cs.hdrLen.toNat + cs.micLen.toNat ≤ s.len
  pn : hdrlen (frameControl s) + cs.pnOff.toNat + cs.pnLen.toNat ≤ s.len
  row : cs.pnLen.toNat ≤ maxPnLen

theorem pnValue_below (pn : Nat → UInt8) (n : Nat) : pnValue pn n < 256 ^ n := by
  induction n with
  | zero => exact Nat.one_pos
  | succ n =>
    have byte := (pn n).toNat_lt
    have scaled : ((pn n).toNat + 1) * 256 ^ n ≤ 256 * 256 ^ n := Nat.mul_le_mul_right _ (by omega)
    rw [Nat.add_mul,Nat.one_mul] at scaled
    rw [pnValue,Nat.pow_succ,Nat.mul_comm (256 ^ n)]
    omega

theorem pnValue_congr (same : ∀ i < n, pn1 i = pn2 i) : pnValue pn1 n = pnValue pn2 n := by
  induction n with
  | zero => rfl
  | succ n ih => rw [pnValue,pnValue,ih fun i below => same i (by omega),same n (by omega)]

theorem pnValue_lt (less : pn1 n < pn2 n) : pnValue pn1 (n + 1) < pnValue pn2 (n + 1) := by
  have below := pnValue_below pn1 n
  have bytes : (pn1 n).toNat + 1 ≤ (pn2 n).toNat := UInt8.lt_iff_toNat_lt.mp less
  have scaled := Nat.mul_le_mul_right (256 ^ n) bytes
  rw [Nat.add_mul,Nat.one_mul] at scaled
  rw [pnValue,pnValue]
  omega

theorem csPnCompare_greater (ran : csPnCompare strict uses pn1 pn2 n = .done order) (positive : 0 < order) :
    0 < n ∧ pnValue pn2 n < pnValue pn1 n := by
  induction n with
  | zero =>
    cases ran
    omega
  | succ n ih =>
    rw [csPnCompare,act_bind_done] at ran
    refine ⟨n.succ_pos,?_⟩
    have rest := ran.2
    split at rest
    · cases rest
      omega
    · rename_i not_less
      split at rest
      · rename_i greater
        exact pnValue_lt greater
      · rename_i not_greater
        have same : pn1 n = pn2 n := UInt8.le_antisymm (UInt8.not_lt.mp not_greater) (UInt8.not_lt.mp not_less)
        have lower := (ih rest).2
        rw [pnValue,pnValue,same]
        omega

theorem csPnCompare_lenient (inside : strict = true → ∀ i < n, ∀ u ∈ uses i, u.1 < u.2) :
    csPnCompare strict uses pn1 pn2 n = csPnCompare false uses pn1 pn2 n := by
  induction n with
  | zero => rfl
  | succ n ih =>
    rw [csPnCompare,csPnCompare,act_done fun checked => inside checked n (by omega),act_lenient,Run.done_bind,Run.done_bind,
      ih fun checked i below => inside checked i (by omega)]

structure Accepted (strict : Bool) (cs : CipherScheme) (rxPn : Nat → UInt8) (rx : RxData) (order : Int) : Prop where
  decrypted : rx.decrypted = true
  linearized : rx.linearized = true
  long : hdrlen (frameControl rx.skb) + cs.hdrLen.toNat ≤ rx.skb.len
  small : subU32 (subU32 rx.skb.len (hdrlen (frameControl rx.skb))) cs.hdrLen.toNat < 2 ^ 31
  compared : csPnCompare strict (pnUses cs rx.skb) (skbPn cs rx.skb) (rowPn rxPn (csTid rx.skb)) cs.pnLen.toNat = .done order
  greater : 0 < order
  inside : strict = true → ∀ i < cs.pnLen.toNat, ∀ u ∈ pnUses cs rx.skb i, u.1 < u.2

theorem hdrlen_bounds (fc : UInt16) : 10 ≤ hdrlen fc ∧ hdrlen fc ≤ 36 := by
  unfold hdrlen
  repeat' split
  all_goals omega

theorem qosCtl_inside (data : isData fc = true) (qos : isDataQos fc = true) : getQosCtl fc < hdrlen fc := by
  unfold hdrlen getQosCtl
  repeat' split
  all_goals omega

theorem dataLen_long (few : n ≤ 36) (byte : m < 256) (small : subU32 (subU32 len n) m < 2 ^ 31) : n + m ≤ len := by
  unfold subU32 at small
  split at small <;> split at small <;> omega

section Decrypt

variable {rx : RxData}

theorem pnUses_all : (∀ u ∈ (List.range n).flatMap (pnUses cs s), u.1 < u.2) ↔ ∀ i < n, ∀ u ∈ pnUses cs s i, u.1 < u.2 := by
  simp only [List.mem_flatMap,List.mem_range]
  exact ⟨fun all i below u member => all u ⟨i,below,member⟩,fun all u ⟨i,below,member⟩ => all i below u member⟩

section
variable (station : rx.sta = some ⟨some cs⟩) (data : isData (frameControl rx.skb) = true)
include station data

theorem decrypt_accepted
    (ran : cryptoCsDecrypt strict rxPn rx = .done o) (goes_on : o.result = .continue) :
    ∃ order, Accepted strict cs rxPn rx order ∧
      o = ⟨.continue,storePn rxPn (csTid rx.skb) cs.pnLen.toNat (skbPn cs rx.skb),csRemove cs rx.skb⟩ := by
  have dropped : (Run.done ⟨.dropUnusable,rxPn,rx.skb⟩ : Run Outcome) ≠ .done o := by
    intro same
    cases same
    cases goes_on
  rw [cryptoCsDecrypt,act_bind_done,station] at ran
  have checks := ran.2
  dsimp only [Option.bind_some] at checks
  rw [data] at checks
  split at checks
  · exact absurd checks dropped
  rename_i decrypted
  rw [if_neg (by decide)] at checks
  split at checks
  · exact absurd checks dropped
  rename_i small
  rw [act_bind_done] at checks
  have rest := checks.2
  split at rest
  · exact absurd rest dropped
  rename_i linearized
  have long := dataLen_long (hdrlen_bounds _).2 cs.hdrLen.toNat_lt (Nat.not_le.mp small)
  cases compared : csPnCompare strict (pnUses cs rx.skb) (skbPn cs rx.skb) (rowPn rxPn (csTid rx.skb)) cs.pnLen.toNat with
  | fault | going =>
    rw [compared] at rest
    cases rest
  | done order =>
    rw [compared,Run.done_bind] at rest
    split at rest
    · exact absurd rest dropped
    · rw [act_bind_done,act_bind_done] at rest
      obtain ⟨inside,_,last⟩ := rest
      refine ⟨order,⟨by simpa using decrypted,by simpa using linearized,long,Nat.not_le.mp small,compared,by omega,
        fun checked => pnUses_all.mp (inside checked)⟩,?_⟩
      cases last
      rfl

theorem accepted_decrypt
    (accepted : Accepted strict cs rxPn rx order) :
    cryptoCsDecrypt strict rxPn rx =
      .done ⟨.continue,storePn rxPn (csTid rx.skb) cs.pnLen.toNat (skbPn cs rx.skb),csRemove cs rx.skb⟩ := by
  have bounds := hdrlen_bounds (frameControl rx.skb)
  have long := accepted.long
  rw [cryptoCsDecrypt,act_bind_done]
  refine ⟨fun _ u member => ?_,?_⟩
  · simp only [List.mem_cons,List.not_mem_nil,or_false] at member
    rcases member with rfl | rfl <;> dsimp only <;> omega
  rw [station]
  dsimp only [Option.bind_some]
  rw [accepted.decrypted,data,if_neg (by decide),if_neg (by decide),if_neg (Nat.not_le.mpr accepted.small),act_bind_done]
  refine ⟨fun _ u member => ?_,?_⟩
  · split at member
    · rename_i qos
      have within := qosCtl_inside data qos
      rw [List.mem_singleton.mp member]
      omega
    · cases member
  · rw [accepted.linearized,if_neg (by decide),accepted.compared,Run.done_bind,if_neg (Int.not_le.mpr accepted.greater),
      act_bind_done,act_bind_done]
    refine ⟨fun checked => pnUses_all.mpr (accepted.inside checked),fun _ u member => ?_,rfl⟩
    obtain ⟨i,below,rfl⟩ := List.mem_map.mp member
    have within := List.mem_range.mp below
    omega

end

end Decrypt

theorem skbMemmove_byte (s : Skb) (n count i : Nat) :
    (skbMemmove s n count).byte i = if n ≤ i ∧ i < n + count then s.byte (i - n) else s.byte i := by
  unfold Skb.byte skbMemmove
  dsimp only
  by_cases moved : n ≤ i ∧ i < n + count
  · rw [if_pos moved,if_pos (by omega),Nat.add_sub_assoc moved.1]
  · rw [if_neg moved,if_neg (by omega)]

theorem slice_length (s : Skb) (lo n : Nat) : (slice s lo n).length = n := by rw [slice,List.length_map,List.length_range]

theorem slice_append (s : Skb) (lo n m : Nat) : slice s lo (n + m) = slice s lo n ++ slice s (lo + n) m := by
  unfold slice
  rw [List.range_add,List.map_append,List.map_map]
  congr 2
  funext i
  rw [Function.comp_apply,Nat.add_assoc]

theorem slice_congr (same : ∀ i < n, s.byte (lo + i) = after.byte (from' + i)) : slice s lo n = slice after from' n :=
  List.map_congr_left fun i member => same i (List.mem_range.mp member)

theorem remove_frame (room : hdrlen (frameControl s) + cs.hdrLen.toNat + cs.micLen.toNat ≤ s.len) :
    frame (csRemove cs s) = slice s 0 (hdrlen (frameControl s)) ++ slice s (hdrlen (frameControl s) + cs.hdrLen.toNat)
      (s.len - (hdrlen (frameControl s) + cs.hdrLen.toNat + cs.micLen.toNat)) := by
  have trimmed : (skbTrim s (subU32 s.len cs.micLen.toNat)).len = s.len - cs.micLen.toNat := by
    rw [subU32,if_pos (by omega),skbTrim_len s (by omega)]
  have pulls : cs.hdrLen.toNat ≤ (skbMemmove (skbTrim s (subU32 s.len cs.micLen.toNat)) cs.hdrLen.toNat (hdrlen (frameControl s))).len := by
    show cs.hdrLen.toNat ≤ (skbTrim s (subU32 s.len cs.micLen.toNat)).len
    omega
  have length : (csRemove cs s).len =
      hdrlen (frameControl s) + (s.len - (hdrlen (frameControl s) + cs.hdrLen.toNat + cs.micLen.toNat)) := by
    rw [csRemove,skbPull_len _ pulls]
    show (skbTrim s (subU32 s.len cs.micLen.toNat)).len - cs.hdrLen.toNat = _
    omega
  rw [frame,length,slice_append]
  congr 1
  · refine slice_congr fun i below => ?_
    rw [csRemove,skbPull_byte _ pulls,skbMemmove_byte,if_pos (by omega),skbTrim_byte]
    congr 1
    omega
  · refine slice_congr fun i _ => ?_
    rw [csRemove,skbPull_byte _ pulls,skbMemmove_byte,if_neg (by omega),skbTrim_byte]
    congr 1
    omega

theorem remove_keeps : KeepsFrame cs s (csRemove cs s) ↔ hdrlen (frameControl s) + cs.hdrLen.toNat + cs.micLen.toNat ≤ s.len := by
  constructor
  · rintro ⟨_,_,_,_,_,_,_,parts,_⟩
    have total := congrArg List.length parts
    rw [frame,slice_length,List.length_append,List.length_append,List.length_append] at total
    omega
  intro room
  refine ⟨slice s 0 (hdrlen (frameControl s)),slice s (hdrlen (frameControl s)) cs.hdrLen.toNat,
    slice s (hdrlen (frameControl s) + cs.hdrLen.toNat) (s.len - (hdrlen (frameControl s) + cs.hdrLen.toNat + cs.micLen.toNat)),
    slice s (s.len - cs.micLen.toNat) cs.micLen.toNat,slice_length _ _ _,slice_length _ _ _,slice_length _ _ _,?_,
    remove_frame room⟩
  have parts : s.len = hdrlen (frameControl s) + cs.hdrLen.toNat +
      (s.len - (hdrlen (frameControl s) + cs.hdrLen.toNat + cs.micLen.toNat)) + cs.micLen.toNat := by omega
  have last : s.len - cs.micLen.toNat = 0 + (hdrlen (frameControl s) + cs.hdrLen.toNat +
      (s.len - (hdrlen (frameControl s) + cs.hdrLen.toNat + cs.micLen.toNat))) := by omega
  rw [last,frame]
  conv => lhs; rw [parts]
  rw [slice_append,slice_append,slice_append,Nat.zero_add,Nat.zero_add]

theorem storePn_row (row : len ≤ maxPnLen) (inside : i < maxPnLen) :
    rowPn (storePn rxPn tid len pn) queue i = if queue = tid ∧ i < len then pn i else rowPn rxPn queue i := by
  unfold rowPn storePn
  by_cases same : queue = tid
  · subst queue
    by_cases stored : i < len
    · rw [if_pos (by omega),if_pos ⟨rfl,stored⟩,Nat.add_sub_cancel_left]
    · rw [if_neg (by omega),if_neg (by omega)]
  · have outside : ¬(maxPnLen * tid ≤ maxPnLen * queue + i ∧ maxPnLen * queue + i < maxPnLen * tid + len) := by
      unfold maxPnLen at *
      omega
    rw [if_neg outside,if_neg fun both => same both.1]

theorem store_advanced (row : cs.pnLen.toNat ≤ maxPnLen)
    (greater : pnValue (rowPn rxPn (csTid s)) cs.pnLen.toNat < pnValue (skbPn cs s) cs.pnLen.toNat) :
    Advanced cs s rxPn (storePn rxPn (csTid s) cs.pnLen.toNat (skbPn cs s)) := by
  have taken : ∀ i < cs.pnLen.toNat, rowPn (storePn rxPn (csTid s) cs.pnLen.toNat (skbPn cs s)) (csTid s) i = skbPn cs s i := by
    intro i below
    rw [storePn_row row (by omega),if_pos ⟨rfl,below⟩]
  refine ⟨taken,?_,fun tid other i inside => ?_⟩
  · rwa [pnValue_congr taken]
  · rw [storePn_row row inside,if_neg fun both => other both.1]

theorem pnUses_inside (positive : 0 < n) : (∀ i < n, ∀ u ∈ pnUses cs s i, u.1 < u.2) ↔
    hdrlen (frameControl s) + cs.pnOff.toNat + n ≤ s.len ∧ n ≤ maxPnLen := by
  unfold pnUses
  simp only [List.mem_cons,List.not_mem_nil,or_false,forall_eq_or_imp,forall_eq]
  constructor
  · intro all
    have last := all (n - 1) (by omega)
    omega
  · intro _ i _
    omega

theorem decrypt_keeps_frame {rx : RxData} {o : Outcome} (station : rx.sta = some ⟨some cs⟩)
    (data : isData (frameControl rx.skb) = true) (ran : cryptoCsDecrypt false rxPn rx = .done o) (goes_on : o.result = .continue) :
    (KeepsFrame cs rx.skb o.skb ∧ cryptoCsDecrypt true rxPn rx = .done o ∧ Advanced cs rx.skb rxPn o.rxPn) ↔ Fits cs rx.skb := by
  obtain ⟨order,accepted,rfl⟩ := decrypt_accepted station data ran goes_on
  have ⟨some_pn,greater⟩ := csPnCompare_greater accepted.compared accepted.greater
  constructor
  · rintro ⟨keeps,checked,_⟩
    obtain ⟨_,strictly,_⟩ := decrypt_accepted station data checked rfl
    have ⟨pn,row⟩ := (pnUses_inside some_pn).mp (strictly.inside rfl)
    exact ⟨remove_keeps.mp keeps,pn,row⟩
  · intro fits
    have inside := (pnUses_inside some_pn).mpr ⟨fits.pn,fits.row⟩
    have strictly : Accepted true cs rxPn rx order := {accepted with
      compared := by rw [csPnCompare_lenient fun _ => inside,accepted.compared]
      inside := fun _ => inside}
    exact ⟨remove_keeps.mpr fits.mic,accepted_decrypt station data strictly,store_advanced fits.row greater⟩

def scheme : CipherScheme := ⟨0x00000f,8,6,0,6,1,0,8⟩

def numbered (n : Nat) : RxData :=
  let mem : Nat → UInt8 := fun a => if a = 0 then 0x08 else if a = 24 then 1 else 0
  ⟨{(default : Skb) with mem := mem,len := 24 + n},some ⟨some scheme⟩,true,true⟩

theorem numbered_fc (n : Nat) : frameControl (numbered n).skb = 0x0008 := by
  have low : (numbered n).skb.byte 0 = 0x08 := rfl
  have high : (numbered n).skb.byte 1 = 0 := rfl
  rw [frameControl,low,high]
  decide

theorem numbered_data (n : Nat) : isData (frameControl (numbered n).skb) = true := by
  rw [numbered_fc]
  decide

theorem numbered_hdrlen (n : Nat) : hdrlen (frameControl (numbered n).skb) = 24 := by
  rw [numbered_fc]
  decide

theorem numbered_tid (n : Nat) : csTid (numbered n).skb = 0 := by
  rw [csTid,numbered_fc,if_neg (by decide)]

theorem numbered_pn (n i : Nat) : skbPn scheme (numbered n).skb i = if i = 0 then 1 else 0 := by
  have place : skbPn scheme (numbered n).skb i = if 0 + (24 + 0 + i) = 0 then 0x08 else if 0 + (24 + 0 + i) = 24 then 1 else 0 := by
    rw [skbPn,numbered_hdrlen]
    rfl
  rw [place,if_neg (by omega)]
  by_cases first : i = 0
  · rw [if_pos first,if_pos (by omega)]
  · rw [if_neg first,if_neg (by omega)]

theorem numbered_accepted (inside : 8 ≤ n) (small : n < 2 ^ 31) : Accepted false scheme (fun _ => 0) (numbered n) 1 := by
  have header : subU32 (24 + n) 24 = n := by
    rw [subU32,if_pos (by omega),Nat.add_sub_cancel_left]
  refine ⟨rfl,rfl,?_,?_,?_,by decide,fun checked => (nomatch checked)⟩
  · rw [numbered_hdrlen]
    show 24 + 8 ≤ 24 + n
    omega
  · rw [numbered_hdrlen]
    show subU32 (subU32 (24 + n) 24) 8 < 2 ^ 31
    rw [header,subU32,if_pos inside]
    omega
  · rw [funext (numbered_pn n),numbered_tid]
    rfl

theorem numbered_decrypt (inside : 8 ≤ n) (small : n < 2 ^ 31) : cryptoCsDecrypt false (fun _ => 0) (numbered n) =
    .done ⟨.continue,storePn (fun _ => 0) 0 6 (skbPn scheme (numbered n).skb),csRemove scheme (numbered n).skb⟩ := by
  have ran := accepted_decrypt rfl (numbered_data n) (numbered_accepted inside small)
  rwa [numbered_tid] at ran

theorem decrypt_keeps_frame_sample :
    (KeepsFrame scheme (numbered 18).skb (csRemove scheme (numbered 18).skb) ∧
      cryptoCsDecrypt true (fun _ => 0) (numbered 18) = .done ⟨.continue,
        storePn (fun _ => 0) 0 6 (skbPn scheme (numbered 18).skb),csRemove scheme (numbered 18).skb⟩ ∧
      Advanced scheme (numbered 18).skb (fun _ => 0) (storePn (fun _ => 0) 0 6 (skbPn scheme (numbered 18).skb))) ↔
    Fits scheme (numbered 18).skb :=
  decrypt_keeps_frame rfl (numbered_data 18) (numbered_decrypt (by decide) (by decide)) rfl

-- A frame that ends with its security header loses half of its header's bytes.
theorem no_room_for_mic : ¬∀ (cs : CipherScheme) (rxPn : Nat → UInt8) (rx : RxData) (o : Outcome), rx.sta = some ⟨some cs⟩ →
    isData (frameControl rx.skb) = true → cryptoCsDecrypt false rxPn rx = .done o → o.result = .continue →
    KeepsFrame cs rx.skb o.skb ∧ cryptoCsDecrypt true rxPn rx = .done o ∧ Advanced cs rx.skb rxPn o.rxPn := by
  intro always
  have keeps := (always scheme (fun _ => 0) (numbered 8) _ rfl (numbered_data 8) (numbered_decrypt (by decide) (by decide)) rfl).1
  have room : 24 + 8 + 8 ≤ 24 + 8 := remove_keeps.mp keeps
  omega

end Mac80211.WpaScheme

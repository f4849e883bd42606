import Mac80211.Tkip
import Mathlib.Data.List.Pairwise

namespace Mac80211.Tkip
open Ieee80211 Memo

structure TkipKey where
  tk : Tk
  rxMicKey : Nat → UInt8
  keyidx : UInt8
  addr : EthAddr
  tx : TkipCtx
  rx : Nat → TkipCtx
  micFailures : UInt32

def computeTkipP1k (key : TkipKey) (iv32 : UInt32) : TkipKey :=
  if key.tx.p1kIv32 ≠ iv32 ∨ key.tx.state = .notInit then {key with tx := tkipMixingPhase1 key.tk key.tx key.addr iv32} else key

def getTkipP1kIv (key : TkipKey) (iv32 : UInt32) : TkipKey × P1k :=
  let key := computeTkipP1k key iv32
  (key,key.tx.p1k)

def frameIv32 (data : List UInt8) : UInt32 := le32 (fun i => data.getD i 0) 4
def frameIv16 (data : List UInt8) : UInt16 := (data.getD 2 0).toUInt16 ||| ((data.getD 0 0).toUInt16 <<< 8)

def getTkipP2k (key : TkipKey) (data : List UInt8) : TkipKey × List UInt8 :=
  let key := computeTkipP1k key (frameIv32 data)
  (key,phase2 key.tk key.tx.p1k (frameIv16 data))

def tkipAddIv (key : TkipKey) : List UInt8 := writeTkipIv key.tx.iv16 ++ [(key.keyidx <<< 6) ||| 0x20] ++ putLe32 key.tx.iv32

structure TkipHwKey where
  generateIv : Bool
  putIvSpace : Bool

structure TkipSkb where
  mpdu : Mpdu
  room : Bool
  hwKey : Option TkipHwKey

-- With the RC4 key if it is encrypted here.
inductive TkipSent where
  | device
  | withIv (mpdu : Mpdu)
  | software (iv32 : UInt32) (iv16 : UInt16) (rc4key : List UInt8) (mpdu : Mpdu)

def increaseIv (key : TkipKey) : TkipKey :=
  let iv16 := key.tx.iv16 + 1
  {key with tx := {key.tx with iv16 := iv16,iv32 := if iv16 = 0 then key.tx.iv32 + 1 else key.tx.iv32}}

def tkipEncryptData (crypto : Crypto) (key : TkipKey) (m : Mpdu) (payload : List UInt8) : TkipKey × Option TkipSent :=
  let out := getTkipP2k key m.body
  (out.1,(wepEncryptData crypto out.2 payload).map fun sealed =>
    .software key.tx.iv32 key.tx.iv16 out.2 {m with body := tkipAddIv key ++ sealed})

def tkipEncryptSkb (crypto : Crypto) (key : TkipKey) (skb : TkipSkb) : TkipKey × Option TkipSent :=
  match skb.hwKey with
  | some hw =>
    if !hw.generateIv && !hw.putIvSpace then (key,some .device)
    else if !skb.room then (key,none)
    else if hw.putIvSpace then (key,some .device)
    else
      let key := increaseIv key
      (key,some (.withIv {skb.mpdu with body := tkipAddIv key ++ skb.mpdu.body}))
  | none =>
    if !skb.room then (key,none)
    else
      let key := increaseIv key
      tkipEncryptData crypto key {skb.mpdu with body := tkipAddIv key ++ skb.mpdu.body} skb.mpdu.body

def cryptoTkipEncrypt (crypto : Crypto) : List TkipSkb → TkipKey → TkipKey × List TkipSent × Bool
  | [],key => (key,[],true)
  | skb :: skbs,key =>
    match tkipEncryptSkb crypto key {skb with mpdu := {skb.mpdu with hdr := setProtected skb.mpdu.hdr}} with
    | (key,none) => (key,[],false)
    | (key,some sent) =>
      let rest := cryptoTkipEncrypt crypto skbs key
      (rest.1,sent :: rest.2.1,rest.2.2)

inductive TxEvent where
  | transmit (skbs : List TkipSkb)
  | queryP1k (iv32 : UInt32)
  | queryP2k (data : List UInt8)

structure TxLog where
  p1ks : List (UInt32 × P1k)
  p2ks : List (UInt32 × UInt16 × List UInt8)
  sent : List TkipSent

def TxLog.append (a b : TxLog) : TxLog := ⟨a.p1ks ++ b.p1ks,a.p2ks ++ b.p2ks,a.sent ++ b.sent⟩

def txStep (crypto : Crypto) (key : TkipKey) : TxEvent → TkipKey × TxLog
  | .transmit skbs =>
    let out := cryptoTkipEncrypt crypto skbs key
    (out.1,⟨[],[],out.2.1⟩)
  | .queryP1k iv32 =>
    let out := getTkipP1kIv key iv32
    (out.1,⟨[(iv32,out.2)],[],[]⟩)
  | .queryP2k data =>
    let out := getTkipP2k key data
    (out.1,⟨[],[(frameIv32 data,frameIv16 data,out.2)],[]⟩)

def txRun (crypto : Crypto) : List TxEvent → TkipKey → TkipKey × TxLog
  | [],key => (key,⟨[],[],[]⟩)
  | e :: events,key =>
    let out := txStep crypto key e
    let rest := txRun crypto events out.1
    (rest.1,out.2.append rest.2)

def txCell (key : TkipKey) : Cell UInt32 P1k :=
  ⟨if key.tx.state = .notInit then none else some key.tx.p1kIv32,key.tx.p1k⟩

theorem compute_cell (key : TkipKey) (iv32 : UInt32) : txCell (computeTkipP1k key iv32) =
    (txCell key).look (phase1 key.tk key.addr) (decide (¬(key.tx.p1kIv32 ≠ iv32 ∨ key.tx.state = .notInit))) iv32 := by
  unfold computeTkipP1k Cell.look
  by_cases anew : key.tx.p1kIv32 ≠ iv32 ∨ key.tx.state = .notInit
  · rw [if_pos anew,if_neg (by rw [decide_eq_true_eq]; exact not_not.mpr anew)]
    rfl
  · rw [if_neg anew,if_pos (decide_eq_true anew)]

-- What changes is the context.
structure SameKey (before after : TkipKey) : Prop where
  tk : after.tk = before.tk
  addr : after.addr = before.addr
  keyidx : after.keyidx = before.keyidx

theorem SameKey.trans (one : SameKey a b) (two : SameKey b c) : SameKey a c :=
  ⟨two.tk.trans one.tk,two.addr.trans one.addr,two.keyidx.trans one.keyidx⟩

theorem compute_frame (key : TkipKey) (iv32 : UInt32) : SameKey key (computeTkipP1k key iv32) ∧
    (computeTkipP1k key iv32).tx.iv32 = key.tx.iv32 ∧ (computeTkipP1k key iv32).tx.iv16 = key.tx.iv16 := by
  unfold computeTkipP1k
  split <;> exact ⟨⟨rfl,rfl,rfl⟩,rfl,rfl⟩

def Current (key : TkipKey) : Prop := (txCell key).Holds (phase1 key.tk key.addr)

theorem compute_current (current : Current key) (iv32 : UInt32) : Current (computeTkipP1k key iv32) ∧
    (computeTkipP1k key iv32).tx.p1k = phase1 key.tk key.addr iv32 := by
  have sound : decide (¬(key.tx.p1kIv32 ≠ iv32 ∨ key.tx.state = .notInit)) = true → (txCell key).key = some iv32 := by
    intro hit
    obtain ⟨same,done⟩ := not_or.mp (of_decide_eq_true hit)
    unfold txCell
    rw [if_neg done,not_not.mp same]
  obtain ⟨⟨tk,addr,_⟩,_⟩ := compute_frame key iv32
  have value := look_value current sound
  rw [← compute_cell] at value
  refine ⟨?_,value⟩
  unfold Current
  rw [tk,addr,compute_cell]
  exact look_holds current _ _

theorem increase_current (current : Current key) : Current (increaseIv key) := current

theorem le16_toNat (bytes : Nat → UInt8) (i : Nat) : (le16 bytes i).toNat = (bytes i).toNat + 256 * (bytes (i + 1)).toNat := by
  have low := (bytes i).toNat_lt
  have high := (bytes (i + 1)).toNat_lt
  have shifted : ((bytes (i + 1)).toUInt16 <<< 8).toNat = (bytes (i + 1)).toNat <<< 8 := by
    simp [UInt16.toNat_shiftLeft,Nat.shiftLeft_eq]
    omega
  unfold le16
  rw [UInt16.toNat_or,shifted,UInt8.toNat_toUInt16,Nat.or_comm,← Nat.shiftLeft_add_eq_or_of_lt low,Nat.shiftLeft_eq]
  omega

theorem le32_toNat (bytes : Nat → UInt8) (i : Nat) :
    (le32 bytes i).toNat = (le16 bytes i).toNat + 65536 * (le16 bytes (i + 2)).toNat := by
  have low := (le16 bytes i).toNat_lt
  have high := (le16 bytes (i + 2)).toNat_lt
  have shifted : ((le16 bytes (i + 2)).toUInt32 <<< 16).toNat = (le16 bytes (i + 2)).toNat <<< 16 := by
    simp [UInt32.toNat_shiftLeft,Nat.shiftLeft_eq]
    omega
  unfold le32
  rw [UInt32.toNat_or,shifted,UInt16.toNat_toUInt32,Nat.or_comm,← Nat.shiftLeft_add_eq_or_of_lt low,Nat.shiftLeft_eq]
  omega

theorem addIv_read (key : TkipKey) (rest : List UInt8) :
    frameIv32 (tkipAddIv key ++ rest) = key.tx.iv32 ∧ frameIv16 (tkipAddIv key ++ rest) = key.tx.iv16 := by
  constructor
  · apply UInt32.toNat_inj.mp
    have bound := key.tx.iv32.toNat_lt
    unfold frameIv32
    rw [le32_toNat,le16_toNat,le16_toNat]
    show key.tx.iv32.toUInt8.toNat + 256 * (key.tx.iv32 >>> 8).toUInt8.toNat +
      65536 * ((key.tx.iv32 >>> 16).toUInt8.toNat + 256 * (key.tx.iv32 >>> 24).toUInt8.toNat) = _
    simp
    omega
  · apply UInt16.toNat_inj.mp
    have bound := key.tx.iv16.toNat_lt
    have bytes := le16_toNat (fun i => if i = 0 then (key.tx.iv16 &&& 0xff).toUInt8 else (key.tx.iv16 >>> 8).toUInt8) 0
    have mask : key.tx.iv16.toNat &&& 255 = key.tx.iv16.toNat % 256 := Nat.and_two_pow_sub_one_eq_mod _ 8
    refine bytes.trans ?_
    show (key.tx.iv16 &&& 0xff).toUInt8.toNat + 256 * (key.tx.iv16 >>> 8).toUInt8.toNat = _
    simp only [UInt16.toNat_toUInt8,UInt16.toNat_and,UInt16.toNat_shiftRight,Nat.shiftRight_eq_div_pow]
    simp
    omega

def Right (key : TkipKey) : TkipSent → Prop
  | .software iv32 iv16 rc4key m =>
    rc4key = phase2 key.tk (phase1 key.tk key.addr iv32) iv16 ∧ frameIv32 m.body = iv32 ∧ frameIv16 m.body = iv16
  | _ => True

def TkipSent.iv : TkipSent → Option (UInt32 × UInt16)
  | .software iv32 iv16 _ _ => some (iv32,iv16)
  | _ => none

def ivs (sent : List TkipSent) : List (UInt32 × UInt16) := sent.filterMap TkipSent.iv

def age (start : Nat) (iv : UInt32 × UInt16) : Nat := (iv.1.toNat * 65536 + iv.2.toNat + 2 ^ 48 - start) % 2 ^ 48

def TkipKey.age (start : Nat) (key : TkipKey) : Nat := Tkip.age start (key.tx.iv32,key.tx.iv16)

theorem increase_age (small : start < 2 ^ 48) (room : key.age start + 1 < 2 ^ 48) : (increaseIv key).age start = key.age start + 1 := by
  have low := key.tx.iv16.toNat_lt
  unfold TkipKey.age age increaseIv at *
  simp only at *
  by_cases wrap : key.tx.iv16 + 1 = 0
  · have next : key.tx.iv16.toNat + 1 = 65536 := by
      have zero := congrArg UInt16.toNat wrap
      simp at zero
      omega
    rw [if_pos wrap,wrap,UInt32.toNat_add]
    simp
    omega
  have next : (key.tx.iv16 + 1).toNat = key.tx.iv16.toNat + 1 := by
    have apart : key.tx.iv16.toNat + 1 ≠ 65536 := by
      intro _
      apply wrap
      apply UInt16.toNat_inj.mp
      simp
      omega
    simp
    omega
  rw [if_neg wrap,next]
  omega

theorem encrypt_cases (crypto : Crypto) (key : TkipKey) (skb : TkipSkb) :
    (∃ out, tkipEncryptSkb crypto key skb = (key,out) ∧ ∀ sent, out = some sent → sent = .device) ∨
    (∃ m, tkipEncryptSkb crypto key skb = (increaseIv key,some (.withIv m))) ∨
    (∃ out, tkipEncryptSkb crypto key skb = (computeTkipP1k (increaseIv key) (increaseIv key).tx.iv32,out) ∧
      ∀ sent, out = some sent → ∃ sealed, sent = .software (increaseIv key).tx.iv32 (increaseIv key).tx.iv16
        (phase2 key.tk (computeTkipP1k (increaseIv key) (increaseIv key).tx.iv32).tx.p1k (increaseIv key).tx.iv16)
        {skb.mpdu with body := tkipAddIv (increaseIv key) ++ sealed}) := by
  unfold tkipEncryptSkb
  cases skb.hwKey with
  | some =>
    simp only
    split
    · exact .inl ⟨_,rfl,fun _ same => (Option.some.inj same).symm⟩
    · split
      · exact .inl ⟨_,rfl,nofun⟩
      · split
        · exact .inl ⟨_,rfl,fun _ same => (Option.some.inj same).symm⟩
        · exact .inr (.inl ⟨_,rfl⟩)
  | none =>
    simp only
    split
    · exact .inl ⟨_,rfl,nofun⟩
    right
    right
    obtain ⟨read32,read16⟩ := addIv_read (increaseIv key) skb.mpdu.body
    unfold tkipEncryptData getTkipP2k
    simp only [read32,read16]
    refine ⟨_,rfl,fun sent made => ?_⟩
    obtain ⟨sealed,_,rfl⟩ := Option.map_eq_some_iff.mp made
    obtain ⟨same,_⟩ := compute_frame (increaseIv key) (increaseIv key).tx.iv32
    rw [same.tk]
    exact ⟨sealed,rfl⟩

theorem encrypt_right (current : Current key) (crypto : Crypto) (skb : TkipSkb) :
    Current (tkipEncryptSkb crypto key skb).1 ∧ SameKey key (tkipEncryptSkb crypto key skb).1 ∧
    ∀ sent, (tkipEncryptSkb crypto key skb).2 = some sent → Right key sent := by
  rcases encrypt_cases crypto key skb with ⟨_,same,device⟩ | ⟨m,same⟩ | ⟨_,same,software⟩
  · rw [same]
    exact ⟨current,⟨rfl,rfl,rfl⟩,fun sent made => device sent made ▸ trivial⟩
  · rw [same]
    refine ⟨increase_current current,⟨rfl,rfl,rfl⟩,?_⟩
    intro sent made
    cases made
    trivial
  · obtain ⟨next,value⟩ := compute_current (increase_current current) (increaseIv key).tx.iv32
    obtain ⟨⟨tk,addr,keyidx⟩,_⟩ := compute_frame (increaseIv key) (increaseIv key).tx.iv32
    rw [same]
    refine ⟨next,⟨tk,addr,keyidx⟩,?_⟩
    intro sent made
    obtain ⟨_,rfl⟩ := software sent made
    rw [value]
    exact ⟨rfl,addIv_read _ _⟩

structure Ages (start : Nat) (low high : Nat) (sent : List TkipSent) : Prop where
  order : (ivs sent).Pairwise fun a b => age start a < age start b
  bounds : ∀ iv ∈ ivs sent, low < age start iv ∧ age start iv ≤ high
  forward : low ≤ high

theorem Ages.nil (forward : low ≤ high) : Ages start low high [] := ⟨.nil,nofun,forward⟩

theorem Ages.append (one : Ages start low mid sent) (two : Ages start mid high more) : Ages start low high (sent ++ more) := by
  have all : ivs (sent ++ more) = ivs sent ++ ivs more := List.filterMap_append
  refine ⟨?_,?_,Nat.le_trans one.forward two.forward⟩
  · rw [all,List.pairwise_append]
    refine ⟨one.order,two.order,?_⟩
    intro a first b second
    exact Nat.lt_of_le_of_lt (one.bounds a first).2 (two.bounds b second).1
  · intro iv held
    rw [all] at held
    rcases List.mem_append.mp held with first | second
    · exact ⟨(one.bounds iv first).1,Nat.le_trans (one.bounds iv first).2 two.forward⟩
    · exact ⟨Nat.lt_of_le_of_lt one.forward (two.bounds iv second).1,(two.bounds iv second).2⟩

theorem encrypt_ages (small : start < 2 ^ 48) (room : key.age start + 1 < 2 ^ 48) (crypto : Crypto) (skb : TkipSkb) :
    (tkipEncryptSkb crypto key skb).1.age start ≤ key.age start + 1 ∧
    Ages start (key.age start) ((tkipEncryptSkb crypto key skb).1.age start) (tkipEncryptSkb crypto key skb).2.toList := by
  have next := increase_age small room
  rcases encrypt_cases crypto key skb with ⟨out,same,device⟩ | ⟨m,same⟩ | ⟨out,same,software⟩
  · rw [same]
    refine ⟨Nat.le_succ _,?_⟩
    cases out with
    | none => exact .nil (Nat.le_refl _)
    | some sent =>
      rw [device sent rfl]
      exact ⟨.nil,nofun,Nat.le_refl _⟩
  · rw [same]
    refine ⟨Nat.le_of_eq next,?_⟩
    rw [next]
    exact ⟨.nil,nofun,Nat.le_succ _⟩
  obtain ⟨_,iv32,iv16⟩ := compute_frame (increaseIv key) (increaseIv key).tx.iv32
  have still : (computeTkipP1k (increaseIv key) (increaseIv key).tx.iv32).age start = key.age start + 1 := by
    rw [← next]
    unfold TkipKey.age
    rw [iv32,iv16]
  rw [same]
  refine ⟨Nat.le_of_eq still,?_⟩
  rw [still]
  cases out with
  | none => exact .nil (Nat.le_succ _)
  | some sent =>
    obtain ⟨_,rfl⟩ := software sent rfl
    have number : age start ((increaseIv key).tx.iv32,(increaseIv key).tx.iv16) = key.age start + 1 := next
    refine ⟨List.pairwise_singleton _ _,?_,Nat.le_succ _⟩
    intro _ held
    rw [List.mem_singleton.mp held,number]
    exact ⟨Nat.lt_succ_self _,Nat.le_refl _⟩

theorem Right.same (same : SameKey key key') (right : Right key' sent) : Right key sent := by
  unfold Right at *
  rwa [same.tk,same.addr] at right

theorem transmit_right (current : Current key) (crypto : Crypto) (skbs : List TkipSkb) :
    Current (cryptoTkipEncrypt crypto skbs key).1 ∧ SameKey key (cryptoTkipEncrypt crypto skbs key).1 ∧
    ∀ sent ∈ (cryptoTkipEncrypt crypto skbs key).2.1, Right key sent := by
  induction skbs generalizing key with
  | nil => exact ⟨current,⟨rfl,rfl,rfl⟩,nofun⟩
  | cons skb skbs ih =>
    obtain ⟨next,same,right⟩ := encrypt_right current crypto {skb with mpdu := {skb.mpdu with hdr := setProtected skb.mpdu.hdr}}
    unfold cryptoTkipEncrypt
    split
    case h_1 key' failed =>
      rw [failed] at next same
      exact ⟨next,same,nofun⟩
    case h_2 key' first made =>
      rw [made] at next same right
      obtain ⟨last,still,rest⟩ := ih next
      refine ⟨last,same.trans still,?_⟩
      intro sent held
      rcases List.mem_cons.mp held with rfl | later
      · exact right sent rfl
      · exact (rest sent later).same same

theorem transmit_ages (small : start < 2 ^ 48) (room : key.age start + skbs.length < 2 ^ 48) (crypto : Crypto) :
    (cryptoTkipEncrypt crypto skbs key).1.age start ≤ key.age start + skbs.length ∧
    Ages start (key.age start) ((cryptoTkipEncrypt crypto skbs key).1.age start) (cryptoTkipEncrypt crypto skbs key).2.1 := by
  induction skbs generalizing key with
  | nil => exact ⟨Nat.le_add_right _ _,.nil (Nat.le_refl _)⟩
  | cons skb skbs ih =>
    rw [List.length_cons] at room ⊢
    obtain ⟨bound,ages⟩ := encrypt_ages small (show key.age start + 1 < 2 ^ 48 by omega) crypto {skb with mpdu := {skb.mpdu with hdr := setProtected skb.mpdu.hdr}}
    unfold cryptoTkipEncrypt
    split
    case h_1 key' failed =>
      rw [failed] at bound ages
      change key'.age start ≤ _ at bound
      have more : key'.age start ≤ key.age start + (skbs.length + 1) := by omega
      exact ⟨more,ages⟩
    case h_2 key' first made =>
      rw [made] at bound ages
      change key'.age start ≤ _ at bound
      obtain ⟨_,rest⟩ := ih (show key'.age start + skbs.length < 2 ^ 48 by omega)
      have more : (cryptoTkipEncrypt crypto skbs key').1.age start ≤ key.age start + (skbs.length + 1) := by omega
      exact ⟨more,ages.append rest⟩

def frames : List TxEvent → Nat
  | [] => 0
  | .transmit skbs :: events => skbs.length + frames events
  | _ :: events => frames events

structure Answers (key : TkipKey) (log : TxLog) : Prop where
  p1ks : ∀ a ∈ log.p1ks, a.2 = phase1 key.tk key.addr a.1
  p2ks : ∀ a ∈ log.p2ks, a.2.2 = phase2 key.tk (phase1 key.tk key.addr a.1) a.2.1
  sent : ∀ sent ∈ log.sent, Right key sent

theorem Answers.append (one : Answers key a) (two : Answers key b) : Answers key (a.append b) := by
  refine ⟨?_,?_,?_⟩
  · intro q held
    exact (List.mem_append.mp held).elim (one.p1ks q) (two.p1ks q)
  · intro q held
    exact (List.mem_append.mp held).elim (one.p2ks q) (two.p2ks q)
  · intro q held
    exact (List.mem_append.mp held).elim (one.sent q) (two.sent q)

theorem step_answers (current : Current key) (crypto : Crypto) (e : TxEvent) :
    Current (txStep crypto key e).1 ∧ SameKey key (txStep crypto key e).1 ∧ Answers key (txStep crypto key e).2 := by
  cases e with
  | transmit skbs =>
    obtain ⟨next,same,right⟩ := transmit_right current crypto skbs
    exact ⟨next,same,nofun,nofun,right⟩
  | queryP1k iv32 =>
    obtain ⟨next,value⟩ := compute_current current iv32
    refine ⟨next,(compute_frame key iv32).1,?_,nofun,nofun⟩
    intro a held
    rw [List.mem_singleton.mp held]
    exact value
  | queryP2k data =>
    obtain ⟨next,value⟩ := compute_current current (frameIv32 data)
    obtain ⟨same,_⟩ := compute_frame key (frameIv32 data)
    refine ⟨next,same,nofun,?_,nofun⟩
    intro a held
    rw [List.mem_singleton.mp held]
    show phase2 (computeTkipP1k key _).tk (computeTkipP1k key _).tx.p1k _ = _
    rw [same.tk,value]

theorem run_answers (current : Current key) (crypto : Crypto) (events : List TxEvent) : Answers key (txRun crypto events key).2 := by
  induction events generalizing key with
  | nil => exact ⟨nofun,nofun,nofun⟩
  | cons e events ih =>
    obtain ⟨next,same,now⟩ := step_answers current crypto e
    have later := ih next
    apply now.append
    refine ⟨?_,?_,fun sent held => (later.sent sent held).same same⟩
    · intro a held
      rw [← same.tk,← same.addr]
      exact later.p1ks a held
    · intro a held
      rw [← same.tk,← same.addr]
      exact later.p2ks a held

theorem compute_age (start : Nat) (key : TkipKey) (iv32 : UInt32) : (computeTkipP1k key iv32).age start = key.age start := by
  obtain ⟨_,same32,same16⟩ := compute_frame key iv32
  unfold TkipKey.age
  rw [same32,same16]

theorem run_ages (small : start < 2 ^ 48) (crypto : Crypto) (events : List TxEvent) (room : key.age start + frames events < 2 ^ 48) :
    Ages start (key.age start) ((txRun crypto events key).1.age start) (txRun crypto events key).2.sent := by
  induction events generalizing key with
  | nil => exact .nil (Nat.le_refl _)
  | cons e events ih =>
    cases e with
    | transmit skbs =>
      change key.age start + (skbs.length + frames events) < 2 ^ 48 at room
      obtain ⟨_,ages⟩ := transmit_ages small (show key.age start + skbs.length < 2 ^ 48 by omega) crypto
      exact ages.append (ih (by omega))
    | queryP1k iv32 =>
      have same := compute_age start key iv32
      have later := ih (show (computeTkipP1k key iv32).age start + _ < 2 ^ 48 by rw [same]; exact room)
      rw [same] at later
      exact later
    | queryP2k data =>
      have same := compute_age start key (frameIv32 data)
      have later := ih (show (computeTkipP1k key (frameIv32 data)).age start + _ < 2 ^ 48 by rw [same]; exact room)
      rw [same] at later
      exact later

theorem tkip_tx_exact (crypto : Crypto) (events : List TxEvent) (fresh : key.tx.state = .notInit) :
    Answers key (txRun crypto events key).2 ∧ (frames events < 2 ^ 48 → (ivs (txRun crypto events key).2.sent).Nodup) := by
  have current : Current key := by
    unfold Current txCell
    rw [if_pos fresh]
    exact empty_holds _ _
  refine ⟨run_answers current crypto events,fun few => ?_⟩
  have low := key.tx.iv16.toNat_lt
  have high := key.tx.iv32.toNat_lt
  have start : key.tx.iv32.toNat * 65536 + key.tx.iv16.toNat < 2 ^ 48 := by omega
  have zero : key.age (key.tx.iv32.toNat * 65536 + key.tx.iv16.toNat) = 0 := by
    unfold TkipKey.age age
    simp only
    omega
  have room : key.age (key.tx.iv32.toNat * 65536 + key.tx.iv16.toNat) + frames events < 2 ^ 48 := by
    rw [zero]
    omega
  have ages := run_ages start crypto events room
  exact ages.order.imp fun less same => Nat.ne_of_lt less (congrArg _ same)

namespace Sample

def tk : Tk := UInt8.ofNat
def ta : EthAddr := #v[0x10,0x22,0x33,0x44,0x55,0x66]

example : phase1 tk ta 0 = ⟨0x3dd2,0x016e,0x76f4,0x8697,0xb2e8⟩ := by decide

def key : TkipKey := ⟨tk,fun _ => 0,0,ta,{TkipCtx.zero with iv16 := 0xfffe},fun _ => TkipCtx.zero,0⟩
def plain : Crypto := ⟨true,fun _ data => data,fun _ => [0,0,0,0]⟩
def frame : Mpdu := ⟨⟨0x0108,Vector.replicate 6 2,ta,Vector.replicate 6 6,0x10,Vector.replicate 6 8,5⟩,[1,2,3]⟩

def across : List TxEvent := [.queryP1k 7,.transmit [⟨frame,true,none⟩,⟨frame,true,none⟩]]

end Sample

theorem tkip_tx_exact_sample : ivs (txRun Sample.plain Sample.across Sample.key).2.sent = [(0,0xffff),(1,0)] ∧
    Answers Sample.key (txRun Sample.plain Sample.across Sample.key).2 ∧
    (ivs (txRun Sample.plain Sample.across Sample.key).2.sent).Nodup := by
  obtain ⟨answers,apart⟩ := tkip_tx_exact Sample.plain Sample.across (show Sample.key.tx.state = .notInit from rfl)
  exact ⟨rfl,answers,apart (by decide)⟩

end Mac80211.Tkip

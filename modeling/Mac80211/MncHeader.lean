import Mac80211.MncDecodePlace
import Mac80211.MncEncodeRun
import Mac80211.MncInvariant
import Mac80211.MncRoundTrip
import Mac80211.TlRxSrc

namespace Mac80211
open Gf Loops
open Function (update update_of_ne update_self)

structure MncHeader where
  k : Nat
  p : Nat
  eid : UInt8
  index : Option Nat
  start : Nat

namespace MncRx

def parse (s : Skb) : MncHeader where
  k := kOf (s.byte 0)
  p := pOf (s.byte 0)
  eid := s.byte 1
  index := if isCoded s then none else some (mindex s)
  start := headOf (kOf (s.byte 0)) (pOf (s.byte 0)) s

end MncRx

namespace MncTx
open MncRx

def codedHeader (k p : Nat) (id : UInt8) : MncHeader := ⟨k,p,id,none,p * p * k + 3⟩
def systematicHeader (k p : Nat) (id : UInt8) (j : Nat) : MncHeader := ⟨k,p,id,some j,3⟩

theorem kpByte_shared : ∀ k < 0x100, kOf (kpByte k P) = k % 64 ∧ pOf (kpByte k P) = P := by
  decide +kernel

structure Drew (random : Nat → UInt8) (drawn dataNew : Nat) (e : Encoding) : Prop where
  source : e.kernel.random = random
  count : e.kernel.drawn = drawn + e.l
  data : e.skbNew.data + etherHeadLen = dataNew
  header : ∀ q < e.l, e.skbNew.mem (dataNew + 3 + q) = random (drawn + q)

theorem drew_coefficient (drew : Drew random drawn dataNew e) (i j : Nat) :
    Drew random drawn dataNew (drawCoefficient dataNew i j e) := by
  have value : e.kernel.random e.kernel.drawn = random (drawn + e.l) := by rw [drew.source,drew.count]
  refine ⟨drew.source,?_,drew.data,?_⟩
  · simp only [drawCoefficient,getRandomByte,drew.count]
    omega
  · intro q below
    simp only [drawCoefficient,getRandomByte] at below ⊢
    by_cases here : q = e.l
    · rw [here,update_self,value]
    · rw [update_of_ne (by omega)]
      exact drew.header q (by omega)

theorem drew_encodeOne (drew : Drew random drawn dataNew e) (positive : 0 < p) (room : 3 + (e.l + p * p) ≤ mncHdrlen)
    (ran : encodeOne src p size mncHdrlen skb e = some after) :
    after.l = e.l + p * p ∧ Drew random drawn dataNew after := by
  obtain ⟨position,_,_⟩ := draw_block e dataNew p
  have block : Drew random drawn dataNew
      (forRange 0 p (fun i e => forRange 0 p (fun j e => drawCoefficient dataNew i j e) e) e) :=
    forRange_keeps _ drew fun i _ _ _ drew => forRange_keeps _ drew fun j _ _ _ drew => drew_coefficient drew i j
  simp only [encodeOne,forStep_ends positive,drew.data] at ran
  cases ran
  generalize forRange 0 p (fun i e => forRange 0 p (fun j e => drawCoefficient dataNew i j e) e) e = new at *
  obtain ⟨_,frame⟩ := addBlocks skb (skb.data + if src then etherHeadLen else 0) p new.coefficient (dataNew + mncHdrlen)
    ((size + p - 1) / p) new.skbNew.mem
  refine ⟨position,block.source,block.count,block.data,?_⟩
  intro q below
  dsimp only at below ⊢
  rw [frame _ (.inl (by omega))]
  exact block.header q below

theorem makeSkbNew_drew (par : TrParam) (encodable : Encodable par.src skbs) (positive : 0 < p) (small : p < 0x100)
    (id : UInt8) (made : makeSkbNew par skbs p id kernel = some (some skb,after)) :
    ∀ q < skbs.length * (p * p), skb.byte (etherHeadLen + 3 + q) = kernel.random (kernel.drawn + q) := by
  cases skbs with
  | nil => exact absurd rfl encodable.nonempty
  | cons first rest =>
    simp only [makeSkbNew,ge_iff_le,Nat.not_le.mpr encodable.count,Nat.not_le.mpr small,if_false,skbCopy] at made
    obtain ⟨e,encoded,same⟩ := Option.map_eq_some_iff.mp made
    cases same
    generalize prepareSkbNew par.src p (first :: rest).length id {first with id := kernel.nextSkb} = skbNew at encoded
    obtain ⟨position,drew⟩ := foldlM_keeps (fun r (e : Encoding) => e.l = r * (p * p) ∧
      Drew kernel.random kernel.drawn (skbNew.data + etherHeadLen) e) (first :: rest)
      ⟨by rw [Nat.zero_mul],rfl,rfl,rfl,fun q below => absurd below (Nat.not_lt_zero q)⟩ (by
        rintro r inside e t ⟨position,drew⟩ ran
        split at ran
        · cases ran
        · have stored : (r + 1) * (p * p) ≤ p * p * (first :: rest).length := by
            rw [Nat.mul_comm (p * p)]
            exact Nat.mul_le_mul_right _ inside
          rw [Nat.succ_mul,← position] at stored
          obtain ⟨next,kept⟩ := drew_encodeOne drew positive (by omega) ran
          exact ⟨by rw [next,position,Nat.succ_mul],kept⟩) encoded
    intro q below
    rw [← position] at below
    have byte := drew.header q below
    rw [← drew.data] at byte
    rw [Skb.byte,← byte]
    congr 1
    omega

-- For a coded packet down to every coefficient drawn, found with the p that is read.
def CodedAgrees (k p : Nat) (id : UInt8) (kernel : Kernel) (sent : Skb) : Prop :=
  ∀ s, Arrives sent s → parse s = codedHeader k p id ∧ ∀ l < k, ∀ m < p, ∀ n < p,
    coefficientRow (parse s).p s m (l * (parse s).p + n) = kernel.random (kernel.drawn + (l * (p * p) + (m * p + n)))

def SystematicAgrees (k p : Nat) (id : UInt8) (j : Nat) (sent : Skb) : Prop :=
  ∀ s, Arrives sent s → parse s = systematicHeader k p id j

def HeadersAgree (par : TrParam) (skbs : List Skb) (id : UInt8) (kernel : Kernel) : Prop :=
  (∀ skb after, makeSkbNew par skbs P id kernel = some (some skb,after) → CodedAgrees skbs.length P id kernel skb) ∧
  ∀ result after, enqueueSkbOriginal skbs P id [] kernel = some (result,after) →
    ∀ j (h : j < result.length), SystematicAgrees skbs.length P id j result[j]

section Agreement

variable (id : UInt8)

theorem coded_agrees (encodable : Encodable par.src skbs) (small : skbs.length ≤ 63)
    (made : makeSkbNew par skbs P id kernel = some (some skb,after)) : CodedAgrees skbs.length P id kernel skb := by
  obtain ⟨_,_,ran,_,_,_,_,packet⟩ := makeSkbNew_coded par encodable (show 0 < P by decide) (by decide) id kernel
  rw [made] at ran
  cases ran
  intro s arrives
  obtain ⟨length,content⟩ := arrives.pulled
  have coded : (generationOf par.src skbs P id).Coded s := Generation.coded_transfer packet length (length ▸ content)
  obtain ⟨same_k,same_p⟩ := kpByte_shared skbs.length (by omega)
  rw [Nat.mod_eq_of_lt (by omega)] at same_k
  have k_read : kOf (s.byte 0) = skbs.length := by rw [coded.kp]; exact same_k
  have p_read : pOf (s.byte 0) = P := by rw [coded.kp]; exact same_p
  have mark : isCoded s = true := by simp [isCoded,Generation.coded_mindex coded]
  refine ⟨?_,fun l small_l m row n column => ?_⟩
  · simp only [parse,codedHeader,headOf,k_read,p_read,coded.eid,mark,if_true]
    rw [Nat.add_comm 3]
    rfl
  · have head : s.len = 3 + P * P * skbs.length + (generationOf par.src skbs P id).len := coded.length
    have inside := position_lt small_l (position_lt row column)
    obtain ⟨quotient,rest⟩ := block_parts column l
    have place : 3 + l * P * P + m * P + n = 3 + (l * (P * P) + (m * P + n)) := by
      rw [Nat.mul_assoc]
      omega
    simp only [parse,p_read,coefficientRow,mark,if_true,quotient,rest,place]
    rw [arrives.content _ (by rw [head,Nat.mul_comm (P * P)]; omega),← Nat.add_assoc]
    exact makeSkbNew_drew par encodable (by decide) (by decide) id made _ inside

theorem systematic_agrees (encodable : Encodable true skbs) (headroom : ∀ s ∈ skbs, 3 ≤ s.data) (small : skbs.length ≤ 63)
    (made : enqueueSkbOriginal skbs P id [] kernel = some (result,after)) (h : j < result.length) :
    SystematicAgrees skbs.length P id j result[j] := by
  rw [enqueueSkbOriginal_eq encodable.nonempty encodable.count (by decide) encodable.same] at made
  cases made
  simp only [List.nil_append,List.length_mapIdx,List.getElem_mapIdx] at h ⊢
  have here : skbs.getD j default = skbs[j] := by simp [List.getD_eq_getElem?_getD,h]
  have packet := systematic_packet encodable P id j h (by rw [here]; exact headroom _ (List.getElem_mem h)) (kernel.nextSkb + j)
  rw [here] at packet
  intro s arrives
  obtain ⟨length,content⟩ := arrives.pulled
  have systematic := Generation.systematic_transfer packet length (length ▸ content)
  obtain ⟨index,other⟩ := Generation.systematic_mindex systematic small
  obtain ⟨same_k,same_p⟩ := kpByte_shared skbs.length (by omega)
  rw [Nat.mod_eq_of_lt (by omega)] at same_k
  have k_read : kOf (s.byte 0) = skbs.length := by rw [systematic.kp]; exact same_k
  have p_read : pOf (s.byte 0) = P := by rw [systematic.kp]; exact same_p
  have mark : isCoded s = false := by simp [isCoded,index,other]
  simp only [parse,systematicHeader,headOf,k_read,p_read,systematic.eid,mark,index,Bool.false_eq_true,if_false]
  rfl

theorem headers_disagree (encodable : Encodable par.src skbs) (byte : skbs.length < 0x100) (large : 63 < skbs.length) :
    ¬HeadersAgree par skbs id kernel := by
  intro agree
  obtain ⟨skb,after,ran,_,_,_,long,packet⟩ := makeSkbNew_coded par encodable (show 0 < P by decide) (by decide) id kernel
  have arrives := pull_arrives long
  have header := congrArg MncHeader.k (agree.1 skb after ran _ arrives).1
  have same_k := (kpByte_shared skbs.length byte).1
  have read : (parse (skbPull skb etherHeadLen)).k = kOf (kpByte skbs.length P) := congrArg kOf packet.kp
  have said : (codedHeader skbs.length P id).k = skbs.length := rfl
  omega

end Agreement

theorem started_par (started : TlRxSrc.tlStartCheck room frame s = some (true,t)) : t.par = TlRxSrc.startParam frame := by
  unfold TlRxSrc.tlStartCheck at started
  split at started
  · cases started
  · split at started
    · cases started
    · split at started
      · cases started
      · obtain ⟨v,begun,same⟩ := Option.map_eq_some_iff.mp started
        cases same
        obtain ⟨_,_,_,_,_,_,rfl⟩ := TlRxSrc.mcs_cases begun
        rfl

theorem header_agreement (started : TlRxSrc.tlStartCheck room frame s = some (true,t)) (count : skbs.length = t.par.dataK.toNat)
    (encodable : Encodable true skbs) (headroom : ∀ s ∈ skbs, 3 ≤ s.data) (id : UInt8) (kernel : Kernel) :
    HeadersAgree t.par skbs id kernel ↔ t.par.dataK.toNat ≤ 63 := by
  have source : t.par.src = true := by rw [started_par started]; rfl
  have encodable_par : Encodable t.par.src skbs := by rwa [source]
  have byte := t.par.dataK.toNat_lt
  rw [← count] at byte ⊢
  constructor
  · intro agree
    by_contra large
    exact headers_disagree id encodable_par byte (by omega) agree
  · intro small
    exact ⟨fun skb after made => coded_agrees id encodable_par small made,
      fun result after made j h => systematic_agrees id encodable headroom small made h⟩

namespace HeaderSample

def start (dataK : UInt8) : Skb := {(default : Skb) with
  mem := fun a => if a = 36 then 0x15 else if a = 37 then 0xae else if a = 59 then dataK else 0
  len := 64
  transportHeader := 34}

def sender : TlRxSrc.State := TlRxSrc.initial fun _ => 0
def started (dataK : UInt8) : TlRxSrc.State :=
  ((TlRxSrc.tlStartCheck (fun _ => true) (start dataK) sender).map Prod.snd).getD sender
def packets (k : Nat) : List Skb := List.replicate k (EncodeSample.packet 42)

end HeaderSample

open HeaderSample in
theorem header_agreement_sample : HeadersAgree (started 2).par (packets 2) 1 EncodeSample.kernel ↔ (2 : UInt8).toNat ≤ 63 := by
  have checked : TlRxSrc.tlStartCheck (fun _ => true) (start 2) sender = some (true,started 2) := rfl
  exact header_agreement checked (by decide) ⟨by decide,by decide,by decide,by decide⟩ (by decide) 1 EncodeSample.kernel

open HeaderSample in
theorem sixty_four_disagree : portnum (start 64) = 5550 ∧
    TlRxSrc.tlStartCheck (fun _ => true) (start 64) sender = some (true,started 64) ∧ (started 64).par.dataK = 64 ∧
    ¬HeadersAgree (started 64).par (packets 64) 1 EncodeSample.kernel := by
  refine ⟨rfl,rfl,rfl,headers_disagree 1 ⟨?_,?_,?_,?_⟩ ?_ ?_⟩
  all_goals decide

end MncTx

-- The Ethernet header is pulled and the MAC header points to it.
structure HandedUp (wire skb : Skb) : Prop where
  header : skb.macHeader + etherHeadLen = skb.data
  length : skb.len + etherHeadLen = wire.len
  content : ∀ o < wire.len, skb.mem (skb.macHeader + o) = wire.byte o

structure Restores (frame skb : Skb) : Prop where
  header : ∀ i < etherHeadLen, skb.mem (skb.macHeader + i) = frame.byte i
  place : skb.macHeader + etherHeadLen = skb.data
  length : skb.len + etherHeadLen = frame.len
  payload : ∀ o < skb.len, skb.byte o = frame.byte (etherHeadLen + o)

namespace MncTx

structure Shifted (frame wire : Skb) : Prop where
  length : wire.len = frame.len + 3
  addresses : ∀ i < 12, wire.byte i = frame.byte i
  type : wire.byte 12 = 0x08 ∧ wire.byte 13 = 0x10
  payload : ∀ o, wire.byte (etherHeadLen + 3 + o) = frame.byte (etherHeadLen + o)

theorem systematic_shifted (headroom : 3 ≤ frame.data) (k p : Nat) (id : UInt8) (j buffer : Nat) :
    Shifted frame (systematic k p id j {frame with id := buffer}) := by
  have head : etherHeadLen = 14 := rfl
  have back : frame.data - 3 + etherHeadLen = frame.data + 11 := by omega
  have bytes_eq : (systematic k p id j {frame with id := buffer}).mem = mncHeader (forRange 0 etherHeadLen (fun i mem =>
        update mem (frame.data - 3 + i) (mem (frame.data - 3 + i + 3))) frame.mem)
        (frame.data + 11) (kpByte k p) id (UInt8.ofNat (j <<< 2)) := by
    rw [← back]
    rfl
  have data : (systematic k p id j {frame with id := buffer}).data = frame.data - 3 := rfl
  obtain ⟨_,_,_,type,subtype⟩ := mncHeader_fields (forRange 0 etherHeadLen (fun i mem =>
    update mem (frame.data - 3 + i) (mem (frame.data - 3 + i + 3))) frame.mem) (frame.data + 11) (kpByte k p) id
    (UInt8.ofNat (j <<< 2)) (by omega)
  refine ⟨rfl,?_,⟨?_,?_⟩,?_⟩
  · intro i _
    rw [Skb.byte,bytes_eq,data,mncHeader_frame _ (by omega),forRange_down,if_pos (by omega),Skb.byte]
    congr 1
    omega
  · rw [Skb.byte,bytes_eq,data,← type]
    congr 1
    omega
  · rw [Skb.byte,bytes_eq,data,← subtype]
    congr 1
    omega
  · intro o
    rw [Skb.byte,bytes_eq,data,mncHeader_frame _ (by omega),forRange_down,if_neg (by omega),Skb.byte]
    congr 1
    omega

end MncTx

namespace MncRx

theorem stripEthertype_mem (s : Skb) : (stripEthertype s).mem =
    update (update s.mem (s.macHeader + 12) 0x08) (s.macHeader + 13) 0x00 := rfl

theorem stripEthertype_header (s : Skb) (h : a ≠ s.macHeader + 12 ∧ a ≠ s.macHeader + 13) : (stripEthertype s).mem a = s.mem a := by
  rw [stripEthertype_mem,update_of_ne h.2,update_of_ne h.1]

theorem decodingSys_fields (s : Skb) (enough : 3 ≤ s.len) :
    (skbDecodingSys s).macHeader = s.macHeader + 3 ∧ (skbDecodingSys s).data = s.data + 3 ∧ (skbDecodingSys s).len = s.len - 3 ∧
      ∀ a, (skbDecodingSys s).mem a = if s.macHeader + 3 ≤ a ∧ a < s.macHeader + 3 + 14 then s.mem (a - 3) else s.mem a := by
  have pulled : ¬3 > s.len := by omega
  unfold skbDecodingSys skbPull
  rw [if_neg pulled]
  refine ⟨rfl,rfl,rfl,fun a => ?_⟩
  rw [← forRange_up s.mem s.macHeader 3 14 a]

theorem shifted_restored (shifted : MncTx.Shifted frame wire) (long : etherHeadLen ≤ frame.len)
    (type : frame.byte 12 = 0x08 ∧ frame.byte 13 = 0x00) (arrived : HandedUp wire s) :
    Restores frame (skbDecodingSys (stripEthertype s)) := by
  have head : etherHeadLen = 14 := rfl
  have here := arrived.header
  have size := arrived.length
  have total := shifted.length
  have restored : ∀ i < etherHeadLen, (stripEthertype s).mem (s.macHeader + i) = frame.byte i := by
    intro i small
    by_cases last : i = 13
    · rw [last,stripEthertype_mem,update_self,type.2]
    · by_cases first : i = 12
      · rw [first,stripEthertype_mem,update_of_ne (by omega),update_self,type.1]
      · rw [stripEthertype_header s (by omega),arrived.content i (by omega),shifted.addresses i (by omega)]
  have stripped : (stripEthertype s).macHeader = s.macHeader ∧ (stripEthertype s).data = s.data ∧ (stripEthertype s).len = s.len :=
    ⟨rfl,rfl,rfl⟩
  obtain ⟨header,data,_,content⟩ := decodingSys_fields (stripEthertype s) (by omega)
  rw [stripped.1] at header content
  rw [stripped.2.1] at data
  refine ⟨?_,by omega,by omega,?_⟩
  · intro i small
    rw [header,content,if_pos (by omega)]
    have source : s.macHeader + 3 + i - 3 = s.macHeader + i := by omega
    rw [source,restored i small]
  · intro o _
    rw [Skb.byte,data,content,if_neg (by omega),stripEthertype_header s (by omega)]
    have place : s.data + 3 + o = s.macHeader + (etherHeadLen + 3 + o) := by omega
    rw [place,arrived.content _ (by omega),shifted.payload]

section
variable {id : UInt8} (made : MncTx.enqueueSkbOriginal skbs p id [] kernel = some (result,after))
include id made

theorem enqueued_systematic :
    ∀ j (h : j < result.length), j < skbs.length ∧
      ∃ buffer, result[j] = MncTx.systematic skbs.length p id j {skbs.getD j default with id := buffer} := by
  cases skbs with
  | nil =>
    cases made
    exact fun j h => absurd h (Nat.not_lt_zero j)
  | cons first rest =>
    unfold MncTx.enqueueSkbOriginal at made
    dsimp only at made
    split at made
    · cases made
      exact fun j h => absurd h (Nat.not_lt_zero j)
    split at made
    · cases made
      exact fun j h => absurd h (Nat.not_lt_zero j)
    obtain ⟨e,walked,same⟩ := Option.map_eq_some_iff.mp made
    cases same
    have kept := foldlM_keeps (fun i (e : MncTx.Enqueued) => e.j = i ∧ e.result.length = i ∧ ∀ j (h : j < e.result.length),
        ∃ buffer, e.result[j] = MncTx.systematic (first :: rest).length p id j {(first :: rest).getD j default with id := buffer})
      (first :: rest) (by exact ⟨rfl,rfl,fun j h => absurd h (Nat.not_lt_zero j)⟩) (by
        rintro i inside e t ⟨index,count,packets⟩ ran
        split at ran
        · cases ran
        cases ran
        refine ⟨by rw [index],by simp [count],fun j h => ?_⟩
        simp only [List.length_append,List.length_singleton] at h
        by_cases last : j = e.result.length
        · subst last
          refine ⟨e.kernel.nextSkb,?_⟩
          have here : (first :: rest).getD i default = (first :: rest)[i] := by
            rw [List.getD_eq_getElem?_getD,List.getElem?_eq_getElem inside,Option.getD_some]
          rw [List.getElem_concat_length rfl,count,index,here]
          rfl
        · obtain ⟨buffer,same⟩ := packets j (by omega)
          exact ⟨buffer,by rw [List.getElem_append_left (by omega),same]⟩) walked
    obtain ⟨_,count,packets⟩ := kept
    exact fun j h => ⟨count ▸ h,packets j h⟩

theorem systematic_transparent
    (sent : j < result.length) (frame : Skb) (original : skbs.getD j default = frame) (long : etherHeadLen ≤ frame.len)
    (headroom : 3 ≤ frame.data) (type : frame.byte 12 = 0x08 ∧ frame.byte 13 = 0x00) (s : Skb)
    (arrived : HandedUp result[j] s) :
    ethertype s = 0x0810 ∧ Restores frame (skbDecodingSys (stripEthertype s)) := by
  obtain ⟨_,buffer,packet⟩ := enqueued_systematic made j sent
  have shifted : MncTx.Shifted frame result[j] := by
    rw [packet,original]
    exact MncTx.systematic_shifted headroom skbs.length p id j buffer
  have head : etherHeadLen = 14 := rfl
  have total := shifted.length
  refine ⟨?_,shifted_restored shifted long type arrived⟩
  rw [ethertype,arrived.content 12 (by omega),arrived.content 13 (by omega),shifted.type.1,shifted.type.2]
  rfl

end

namespace TransparentSample

def frame : Skb := {(default : Skb) with
  mem := fun a => if a = 28 then 0x08 else if a = 31 then 0x45 else 0
  data := 16
  len := 60}
def start : Kernel := ⟨0,fun _ => 0,0,[]⟩
def wire : Skb := MncTx.systematic 1 2 7 0 {frame with id := 0}
def received : Skb := {skbPull wire etherHeadLen with macHeader := wire.data}

end TransparentSample

open TransparentSample in
theorem systematic_transparent_sample :
    ethertype received = 0x0810 ∧ Restores frame (skbDecodingSys (stripEthertype received)) :=
  have made : MncTx.enqueueSkbOriginal [frame] 2 7 [] start = some ([wire],{start with nextSkb := 1}) := rfl
  systematic_transparent made (show 0 < [wire].length by decide) frame rfl (by decide) (by decide) (by decide) received
    ⟨rfl,rfl,fun _ _ => rfl⟩

end MncRx
end Mac80211

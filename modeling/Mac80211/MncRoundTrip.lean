import Mac80211.MncOutcome

namespace Mac80211
open Gf Loops Finset LinearSystems MncRx

namespace Generation
variable {G : Generation}

theorem coded_transfer (coded : G.Coded s) (length : t.len = s.len) (content : ∀ o < s.len, t.byte o = s.byte o) :
    G.Coded t := by
  have size : 3 ≤ G.headSize := by simp only [headSize]; omega
  have whole : G.whole ≤ G.len := Nat.mul_div_le _ _
  have long := coded.length
  refine ⟨?_,?_,?_,length.trans coded.length,?_⟩
  · rw [content 0 (by omega)]; exact coded.kp
  · rw [content 1 (by omega)]; exact coded.eid
  · rw [content 2 (by omega)]; exact coded.third
  intro o inside
  have payload := coded.payload o inside
  simp only [bytes,combination] at payload ⊢
  rw [content _ (by omega),payload]
  refine sum_congr rfl fun l row => sum_congr rfl fun j column => ?_
  have positive : 0 < G.p := Nat.lt_of_le_of_lt (Nat.zero_le j) (mem_range.mp column)
  have slot := MncTx.position_lt (Nat.mod_lt o positive) (mem_range.mp column)
  have block := MncTx.position_lt (mem_range.mp row) slot
  have head : G.k * (G.p * G.p) = G.p * G.p * G.k := Nat.mul_comm _ _
  rw [content _ (by rw [long,headSize]; omega)]

theorem systematic_transfer (systematic : G.Systematic i s) (length : t.len = s.len)
    (content : ∀ o < s.len, t.byte o = s.byte o) : G.Systematic i t := by
  have long := systematic.length
  refine ⟨systematic.index,?_,?_,?_,length.trans systematic.length,?_⟩
  · rw [content 0 (by omega)]; exact systematic.kp
  · rw [content 1 (by omega)]; exact systematic.eid
  · rw [content 2 (by omega)]; exact systematic.third
  · intro o inside
    rw [content _ (by omega)]
    exact systematic.payload o inside

theorem systematic_mindex (systematic : G.Systematic i s) (bound : G.k ≤ 0x3f) : mindex s = i ∧ i ≠ 0x3f := by
  have index := systematic.index
  refine ⟨?_,by omega⟩
  rw [mindex,systematic.third,UInt8.toNat_shiftRight,UInt8.toNat_ofNat',Nat.shiftRight_eq_div_pow,Nat.shiftLeft_eq]
  have : (2 : UInt8).toNat % 8 = 2 := rfl
  rw [this]
  omega

theorem coded_mindex (coded : G.Coded s) : mindex s = 0x3f := by
  rw [mindex,coded.third]
  rfl

theorem packet_systematic (packet : G.Packet s) (bound : G.k ≤ 0x3f) (index : mindex s ≠ 0x3f) :
    G.Systematic (mindex s) s := by
  rcases packet with ⟨i,systematic⟩ | coded
  · rwa [(systematic_mindex systematic bound).1]
  · exact absurd (coded_mindex coded) index

theorem packet_coded (packet : G.Packet s) (bound : G.k ≤ 0x3f) (index : mindex s = 0x3f) : G.Coded s := by
  rcases packet with ⟨i,systematic⟩ | coded
  · obtain ⟨same,other⟩ := systematic_mindex systematic bound
    exact absurd (same.symm.trans index) other
  · exact coded

def block (G : Generation) (t c : Nat) : GF := bytes (G.originals (c / G.p)) (t * G.p + c % G.p)

theorem block_position (column : l < G.p) (j t : Nat) : G.block t (j * G.p + l) = bytes (G.originals j) (t * G.p + l) := by
  obtain ⟨quotient,rest⟩ := block_parts column j
  rw [block,quotient,rest]

theorem block_inside (bound : t < G.len / G.p) (row : m < G.p) : t * G.p + m < G.whole := by
  rw [whole,Nat.mul_comm G.p]
  exact MncTx.position_lt bound row

theorem systematic_row (systematic : G.Systematic i s) (bound : G.k ≤ 0x3f) (row : m < G.p) (inside : t < G.len / G.p) :
    ∑ c ∈ range (G.k * G.p), bytes (coefficientRow G.p s m) c * G.block t c = bytes s.byte (3 + t * G.p + m) := by
  obtain ⟨same,other⟩ := systematic_mindex systematic bound
  have place := MncTx.position_lt systematic.index row
  have short : t * G.p + m < G.len := Nat.lt_of_lt_of_le (block_inside inside row) (Nat.mul_div_le _ _)
  have not_coded : isCoded s = false := by simp [isCoded,same,other]
  rw [sum_eq_single (i * G.p + m)]
  · have one : bytes (coefficientRow G.p s m) (i * G.p + m) = 1 := by
      simp [bytes,coefficientRow,not_coded,same]
    have payload := systematic.payload _ short
    rw [← Nat.add_assoc] at payload
    rw [one,one_mul,block_position row]
    simp only [bytes,payload]
  · intro c _ apart
    have zero : bytes (coefficientRow G.p s m) c = 0 := by
      simp [bytes,coefficientRow,not_coded,same,apart]
    rw [zero,zero_mul]
  · intro outside
    exact absurd (mem_range.mpr place) outside

theorem coded_row (coded : G.Coded s) (row : m < G.p) (inside : t < G.len / G.p) :
    ∑ c ∈ range (G.k * G.p), bytes (coefficientRow G.p s m) c * G.block t c = bytes s.byte (G.headSize + t * G.p + m) := by
  have mark : isCoded s = true := by simp [isCoded,coded_mindex coded]
  obtain ⟨quotient,rest⟩ := block_parts row t
  rw [sum_rows,Nat.add_assoc,coded.payload _ (block_inside inside row),combination,quotient,rest]
  refine sum_congr rfl fun l _ => sum_congr rfl fun j column => ?_
  have bound := mem_range.mp column
  obtain ⟨head,tail⟩ := block_parts bound l
  rw [block_position bound]
  simp only [bytes,coefficientRow,mark,if_true,head,tail,Nat.mul_assoc]

theorem block_solves (packets : ∀ i < G.k, G.Packet (skb i)) (bound : G.k ≤ 0x3f)
    (index : ∀ i < G.k, mindex (skb i) = if isSys i then i else 0x3f) (inside : t < G.len / G.p) :
    Solves (G.k * G.p) (LuFac.field (coefficientMatrix G.p ((List.range G.k).map skb))) (G.block t)
      fun r => bytes (fillB G.k G.p (3 + G.p * G.p * G.k) isSys skb (t * G.p)) r := by
  intro r small
  have positive : 0 < G.p := Nat.pos_of_ne_zero fun zero => by simp [zero] at small
  have place : r / G.p < G.k := Nat.div_lt_of_lt_mul (by rwa [Nat.mul_comm])
  have row := Nat.mod_lt r positive
  have parts := Nat.div_add_mod' r G.p
  have entries : ∀ c, coefficientMatrix G.p ((List.range G.k).map skb) r c =
      coefficientRow G.p (skb (r / G.p)) (r % G.p) c := by
    intro c
    have here := coefficientMatrix_row (show r / G.p < ((List.range G.k).map skb).length by simpa using place) row c
    rwa [parts,List.getElem_map,List.getElem_range] at here
  have right : fillB G.k G.p (3 + G.p * G.p * G.k) isSys skb (t * G.p) r =
      (skb (r / G.p)).byte ((if isSys (r / G.p) then 3 else 3 + G.p * G.p * G.k) + t * G.p + r % G.p) := by
    have here : fillB G.k G.p (3 + G.p * G.p * G.k) isSys skb (t * G.p) (r / G.p * G.p + r % G.p) = _ :=
      fillB_row place row
    rwa [parts] at here
  simp only [LuFac.field,bytes,entries,right]
  cases mark : isSys (r / G.p) with
  | true =>
    have here := index _ place
    rw [mark,if_pos rfl] at here
    have other : mindex (skb (r / G.p)) ≠ 0x3f := by omega
    exact systematic_row (packet_systematic (packets _ place) bound other) bound row inside
  | false =>
    have here := index _ place
    rw [mark,if_neg (by decide)] at here
    exact coded_row (packet_coded (packets _ place) bound here) row inside

theorem kpByte_parts : ∀ k < 0x40, ∀ p < 4,(MncTx.kpByte k p >>> 2).toNat = k ∧ (MncTx.kpByte k p &&& 0x3).toNat = p := by
  decide +kernel

theorem solved_content {len : Nat} (solved : Solved G.k G.p pkts kernel isSys skb newskb len) (belongs : ∀ s ∈ pkts, G.Packet s)
    (some_packets : 0 < G.k) (bound : G.k ≤ 0x3f) (positive : 0 < G.p) :
    len = G.len ∧ ∀ i < G.k, (isSys i = false → (newskb i).len = G.headSize + G.len) ∧
      ∀ o < G.whole, (newskb i).byte o = G.originals i o := by
  have packets : ∀ i < G.k, G.Packet (skb i) := by
    intro i small
    exact belongs _ (solved.packets.mem_iff.mp (List.mem_map_of_mem (List.mem_range.mpr small)))
  have coded : ∀ i < G.k, isSys i = false → G.Coded (skb i) := by
    intro i small mark
    have index := solved.index i small
    rw [mark,if_neg (by decide)] at index
    exact packet_coded (packets i small) bound index
  have length : len = G.len := by
    rw [solved.length]
    cases mark : isSys 0 with
    | true =>
      have index := solved.index 0 some_packets
      rw [mark,if_pos rfl] at index
      have long := (packet_systematic (packets 0 some_packets) bound (by omega)).length
      rw [if_pos rfl,subU32,if_pos (by omega)]
      omega
    | false =>
      have long := (coded 0 some_packets mark).length
      simp only [headSize] at long
      rw [if_neg (by decide),subU32,if_pos (by omega)]
      omega
  refine ⟨length,fun i small => ⟨?_,?_⟩⟩
  · intro mark
    rw [solved.copies i small]
    exact (coded i small mark).length
  · intro o inside
    obtain ⟨early,parts,row⟩ := whole_block positive inside
    have whole_block : o / G.p < G.len / G.p := Nat.div_lt_of_lt_mul inside
    have value := solved.blocks i small (o / G.p) (by rw [length]; exact early) (G.block (o / G.p))
      (block_solves packets bound solved.index whole_block) (o % G.p) row
    rw [block_position row,parts] at value
    exact congrArg GF.byte value

-- Behind the Ethernet header at the source, without one at a relay.
structure Carries (G : Generation) (src : Bool) (skbs : List Skb) : Prop where
  encodable : MncTx.Encodable src skbs
  count : skbs.length = G.k
  length : (MncTx.generationOf src skbs G.p G.eid).len = G.len
  payload : ∀ i < G.k, ∀ o < G.len, MncTx.codingByte src (skbs.getD i default) o = G.originals i o

-- Coded packets with any random blocks, and at the source the systematic ones.
inductive Sent (G : Generation) : Skb → Prop where
  | coded (par : TrParam) (skbs : List Skb) (kernel after : Kernel) (carries : G.Carries par.src skbs)
      (made : MncTx.makeSkbNew par skbs G.p G.eid kernel = some (some skb,after)) : Sent G skb
  | systematic (skbs : List Skb) (kernel after : Kernel) (carries : G.Carries true skbs)
      (room : ∀ s ∈ skbs, 3 ≤ s.data) (made : MncTx.enqueueSkbOriginal skbs G.p G.eid [] kernel = some (result,after))
      (member : skb ∈ result) : Sent G skb

theorem coded_agrees {H : Generation} (coded : H.Coded s) (count : H.k = G.k) (size : H.p = G.p)
    (length : H.len = G.len) (name : H.eid = G.eid)
    (originals : ∀ i < G.k, ∀ o < G.whole, H.originals i o = G.originals i o) : G.Coded s := by
  have head : H.headSize = G.headSize := by rw [headSize,headSize,count,size]
  have whole : H.whole = G.whole := by rw [Generation.whole,Generation.whole,length,size]
  refine ⟨?_,coded.eid.trans name,coded.third,?_,?_⟩
  · rw [coded.kp,kp,kp,count,size]
  · rw [coded.length,head,length]
  · intro o inside
    have payload := coded.payload o (by rwa [whole])
    rw [head] at payload
    rw [payload,combination,combination,count,size]
    have quotient : o / G.p < G.len / G.p := Nat.div_lt_of_lt_mul inside
    refine sum_congr rfl fun l row => sum_congr rfl fun j column => ?_
    have short := block_inside quotient (mem_range.mp column)
    simp only [bytes]
    rw [originals l (mem_range.mp row) _ short]

theorem carries_coded (carries : G.Carries src skbs)
    (coded : (MncTx.generationOf src skbs G.p G.eid).Coded s) : G.Coded s := by
  refine coded_agrees coded carries.count rfl carries.length rfl fun i small o inside => ?_
  exact carries.payload i small o (Nat.lt_of_lt_of_le inside (Nat.mul_div_le G.len G.p))

theorem carries_systematic (carries : G.Carries src skbs) (systematic : (MncTx.generationOf src skbs G.p G.eid).Systematic i s) :
    G.Systematic i s := by
  have same : (MncTx.generationOf src skbs G.p G.eid).k = G.k := carries.count
  have index : i < G.k := by rw [← same]; exact systematic.index
  refine ⟨index,?_,systematic.eid,systematic.third,?_,?_⟩
  · rw [systematic.kp,kp,kp,same]
    rfl
  · rw [systematic.length,carries.length]
  · intro o inside
    rw [systematic.payload o (by rwa [carries.length])]
    exact carries.payload i index o inside

theorem sent_packet (sent : G.Sent wire) (positive : 0 < G.p) (small : G.p < 0x100) (arrives : Arrives wire skb) :
    G.Packet skb := by
  obtain ⟨length,content⟩ := arrives.pulled
  rw [length] at content
  cases sent with
  | coded par skbs kernel after carries made =>
    obtain ⟨_,_,ran,_,_,_,_,coded⟩ := MncTx.makeSkbNew_coded par carries.encodable positive small G.eid kernel
    rw [ran] at made
    cases made
    exact .inr (coded_transfer (carries_coded carries coded) length content)
  | systematic skbs kernel after carries room made member =>
    rw [MncTx.enqueueSkbOriginal_eq carries.encodable.nonempty carries.encodable.count small carries.encodable.same] at made
    cases made
    obtain ⟨i,inside,rfl⟩ := List.mem_mapIdx.mp member
    have here : skbs.getD i default = skbs[i] := by simp [List.getD_eq_getElem?_getD,inside]
    have systematic := MncTx.systematic_packet carries.encodable G.p G.eid i inside
      (by rw [here]; exact room _ (List.getElem_mem inside)) (kernel.nextSkb + i)
    rw [here] at systematic
    exact .inl ⟨i,systematic_transfer (carries_systematic carries systematic) length content⟩

theorem decodes (some_packets : 1 ≤ G.k) (count_bound : G.k ≤ 63) (positive : 1 ≤ G.p) (size_bound : G.p ≤ 3)
    (count : pkts.length = G.k) (received : ∀ s ∈ pkts, ∃ wire, G.Sent wire ∧ Arrives wire s) (distinct : Distinct pkts)
    (regular : Regular G.k G.p pkts) (kernel : Kernel) :
    ∃ d, skbsDecoding pkts G.kp kernel = some d ∧ d.ok = true ∧
      d.newskbs.map Prod.fst = (List.range G.k).filter (fun i => ∀ s ∈ pkts, mindex s ≠ i) ∧
      ∀ i s, (i,s) ∈ d.newskbs → s.len = G.len ∧ ∀ o < G.whole, s.byte o = G.originals i o := by
  have belongs : ∀ s ∈ pkts, G.Packet s := by
    intro s member
    obtain ⟨_,sent,arrives⟩ := received s member
    exact sent_packet sent (by omega) (by omega) arrives
  have generates : Generates G.k pkts := by
    refine ⟨count,fun s member => ?_⟩
    rcases belongs s member with ⟨i,systematic⟩ | coded
    · rw [(systematic_mindex systematic (by omega)).1]
      exact .inl systematic.index
    · exact .inr (coded_mindex coded)
  obtain ⟨k_eq,p_eq⟩ := kpByte_parts G.k (by omega) G.p (by omega)
  have k_eq : (G.kp >>> 2).toNat = G.k := k_eq
  have p_eq : (G.kp &&& 0x3).toNat = G.p := p_eq
  rw [← k_eq] at generates
  obtain ⟨d,ran,outcome⟩ := skbsDecoding_outcome G.kp generates (by omega) (by omega) kernel
  rw [k_eq,p_eq] at outcome
  refine ⟨d,ran,?_⟩
  cases outcome with
  | duplicate repeated => exact absurd distinct repeated
  | dependent _ singular => exact absurd regular singular
  | @solved isSys skb newskb len _ _ solved =>
    obtain ⟨length,content⟩ := solved_content solved belongs (by omega) (by omega) (by omega)
    have slots : ∀ s, s ∈ pkts ↔ ∃ j < G.k, skb j = s := by
      intro s
      rw [← solved.packets.mem_iff]
      simp
    refine ⟨rfl,?_,?_⟩
    · rw [List.map_map]
      have first : (Prod.fst ∘ fun i => (i,skbTrim (newskb i) len)) = id := rfl
      rw [first,List.map_id]
      refine List.filter_congr fun i member => ?_
      have small := List.mem_range.mp member
      rw [Bool.eq_iff_iff]
      simp only [Bool.not_eq_true',decide_eq_true_eq]
      constructor
      · rintro mark s here same
        obtain ⟨j,inside,rfl⟩ := (slots s).mp here
        have index := solved.index j inside
        cases other : isSys j with
        | true =>
          rw [other,if_pos rfl] at index
          rw [show i = j by omega,other] at mark
          cases mark
        | false =>
          rw [other,if_neg (by decide)] at index
          omega
      · intro absent
        cases mark : isSys i with
        | false => rfl
        | true =>
          have index := solved.index i small
          rw [mark,if_pos rfl] at index
          exact absurd index (absent _ ((slots _).mpr ⟨i,small,rfl⟩))
    · intro i s member
      obtain ⟨j,inside,same⟩ := List.mem_map.mp member
      cases same
      obtain ⟨range,mark⟩ := List.mem_filter.mp inside
      obtain ⟨long,bytes_eq⟩ := content i (List.mem_range.mp range)
      refine ⟨?_,fun o early => ?_⟩
      · rw [skbTrim_len _ (by rw [long (by simpa using mark),length]; omega),length]
      · rw [skbTrim_byte]
        exact bytes_eq o early

end Generation

theorem mnc_round_trip (G : Generation) (some_packets : 1 ≤ G.k) (count_bound : G.k ≤ 62) (positive : 1 ≤ G.p)
    (size_bound : G.p ≤ 3) (pkts : List Skb) (count : pkts.length = G.k)
    (received : ∀ s ∈ pkts, ∃ wire, G.Sent wire ∧ Arrives wire s) (distinct : Distinct pkts)
    (regular : Regular G.k G.p pkts) (kernel : Kernel) :
    ∃ d, skbsDecoding pkts G.kp kernel = some d ∧ d.ok = true ∧
      d.newskbs.map Prod.fst = (List.range G.k).filter (fun i => ∀ s ∈ pkts, mindex s ≠ i) ∧
      ∀ i s, (i,s) ∈ d.newskbs → s.len = G.len ∧ ∀ o < G.p * (G.len / G.p), s.byte o = G.originals i o := by
  exact Generation.decodes some_packets (by omega) positive size_bound count received distinct regular kernel

namespace RoundTripSample

def original (v : UInt8) : Skb := {(default : Skb) with mem := fun a => if a = 30 then v else 0,data := 16,len := 15}
def originals : List Skb := [original 5,original 9]
def generation : Generation := ⟨2,1,1,7,fun i _ => if i = 0 then 5 else 9⟩
def par : TrParam := {src := true}
def start : Kernel := ⟨0,fun _ => 1,0,[]⟩
def made : Option (Option Skb × Kernel) := MncTx.makeSkbNew par originals 1 7 start
def coded : Skb := (made.bind Prod.fst).getD default
def systematic : Skb := MncTx.systematic 2 1 7 1 {original 9 with id := 1}
def pkts : List Skb := [skbPull coded etherHeadLen,skbPull systematic etherHeadLen]

theorem carries : generation.Carries true originals :=
  ⟨⟨by decide,by decide,by decide,by decide⟩,rfl,by decide,by decide⟩

theorem regular : Regular 2 1 pkts := by
  have det : (square 2 (LuFac.field (coefficientMatrix 1 pkts))).det ≠ 0 := by
    decide
  exact det

theorem received : ∀ s ∈ pkts, ∃ wire, generation.Sent wire ∧ Arrives wire s := by
  intro s member
  have either : s = skbPull coded etherHeadLen ∨ s = skbPull systematic etherHeadLen := by
    simpa [pkts] using member
  rcases either with rfl | rfl
  · exact ⟨_,.coded par originals start ((made.map Prod.snd).getD start) carries rfl,pull_arrives (by decide)⟩
  · exact ⟨_,.systematic originals start {start with nextSkb := 2} carries (by decide) rfl
      (List.mem_cons_of_mem _ (List.mem_singleton.mpr rfl)),pull_arrives (by decide)⟩

end RoundTripSample

theorem mnc_round_trip_sample : ∃ d, skbsDecoding RoundTripSample.pkts RoundTripSample.generation.kp
      RoundTripSample.start = some d ∧ d.ok = true ∧
    d.newskbs.map Prod.fst = (List.range 2).filter (fun i => ∀ s ∈ RoundTripSample.pkts, mindex s ≠ i) ∧
    ∀ i s, (i,s) ∈ d.newskbs → s.len = 1 ∧ ∀ o < 1 * (1 / 1), s.byte o = RoundTripSample.generation.originals i o :=
  mnc_round_trip RoundTripSample.generation (by decide) (by decide) (by decide) (by decide) RoundTripSample.pkts rfl
    RoundTripSample.received (by decide) RoundTripSample.regular RoundTripSample.start

end Mac80211

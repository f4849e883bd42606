import Mac80211.MncEncodeRun
import Mac80211.MncRoundTrip

namespace Mac80211
open Gf Loops Guarded Finset

namespace MncTx

section Access

variable (strict : Bool) (fuel : Nat)

def drawRun (p dataNew i j : Nat) (e : Encoding) : Run Encoding :=
  act strict [(i,p),(j,p),(etherHeadLen + 3 + e.l,e.skbNew.len)] (drawCoefficient dataNew i j e)

def calDataRun (codingLen i place size : Nat) (data : Nat → UInt8) (p : Nat) (coefficient : Nat → Nat → UInt8)
    (dataNew : Nat) (mem : Nat → UInt8) : Run (Nat → UInt8) :=
  forRun 0 p (fun row => forRun 0 p (fun j mem =>
    let mul := gmul (data j) (coefficient row j)
    act strict [(i + j,codingLen),(row,p),(j,p),(place + row,size)]
      (Function.update mem (dataNew + row) (gadd (mem (dataNew + row)) mul)))) mem

def encodeOneAccess (src : Bool) (p codingLen mncHdrlen : Nat) (skb : Skb) (e : Encoding) : Run Encoding :=
  let data := skb.data + (if src then etherHeadLen else 0)
  let dataNew := e.skbNew.data + etherHeadLen
  (forRun 0 p (fun i => forRun 0 p fun j => drawRun strict p dataNew i j) e).bind fun e =>
  let dataNew := dataNew + mncHdrlen
  (stepRun codingLen p (fun i => calDataRun strict codingLen i (etherHeadLen + mncHdrlen + i) e.skbNew.len
    (fun o => skb.mem (data + i + o)) p e.coefficient (dataNew + i)) fuel 0 e.skbNew.mem).bind fun mem =>
  .done {e with skbNew := {e.skbNew with mem := mem}}

def preparedBytes (skbNew : Skb) : List Nat :=
  (List.range (subU32 skbNew.len etherHeadLen)).map (etherHeadLen + ·) ++
    [etherHeadLen,etherHeadLen + 1,etherHeadLen + 2,etherHeadLen - 2,etherHeadLen - 1]

def prepareRun (src : Bool) (p k : Nat) (id : UInt8) (skbNew : Skb) : Run Skb :=
  let skbNew := prepareSkbNew src p k id skbNew
  act strict ((preparedBytes skbNew).map fun o => (o,skbNew.len)) skbNew

def makeSkbNewAccess (par : TrParam) (skbs : List Skb) (p : Nat) (id : UInt8) (kernel : Kernel) : Run (Option Skb × Kernel) :=
  let k := skbs.length
  match skbs with
  | [] => .done (none,kernel)
  | first :: _ =>
    if k ≥ 0x1000000 then .done (none,kernel)
    else if p ≥ 0x100 then .done (none,kernel)
    else
      let mncHdrlen := p * p * k + 3
      let (skbNew,kernel) := skbCopy first kernel
      (prepareRun strict par.src p k id skbNew).bind fun skbNew =>
      (walkRun (otherLength first) (encodeOneAccess strict fuel par.src p (codingLen par.src first) mncHdrlen) fuel skbs
        ⟨skbNew,0,fun _ _ => 0,kernel⟩).bind fun e =>
      .done (some e.skbNew,e.kernel)

end Access

section Inside

variable {codingLen : Nat}

theorem draws_inside (e : Encoding) (dataNew : Nat) (room : etherHeadLen + 3 + (e.l + p * p) ≤ e.skbNew.len) :
    forRun 0 p (fun i => forRun 0 p fun j => drawRun true p dataNew i j) e =
      .done (forRange 0 p (fun i e => forRange 0 p (fun j e => drawCoefficient dataNew i j e) e) e) := by
  refine (forRun_counted (fun i (after : Encoding) => after.l = e.l + i * p ∧ after.skbNew.len = e.skbNew.len)
    (Nat.zero_le p) ⟨by rw [Nat.zero_mul,Nat.add_zero],rfl⟩ ?_).1
  rintro i _ _ row ⟨position,length⟩
  have columns : ∀ j (drawn : Encoding), 0 ≤ j → j < p → drawn.l = e.l + (i * p + j) ∧ drawn.skbNew.len = e.skbNew.len →
      drawRun true p dataNew i j drawn = .done (drawCoefficient dataNew i j drawn) ∧
        (drawCoefficient dataNew i j drawn).l = e.l + (i * p + (j + 1)) ∧
        (drawCoefficient dataNew i j drawn).skbNew.len = e.skbNew.len := by
    rintro j drawn _ column ⟨position,length⟩
    have slot := position_lt row column
    refine ⟨act_inside ?_ true _,?_,length⟩
    · simp only [List.mem_cons,List.not_mem_nil,or_false,forall_eq_or_imp,forall_eq]
      exact ⟨row,column,by omega⟩
    · simp only [drawCoefficient,getRandomByte,position]
      omega
  obtain ⟨ran,next,same⟩ := forRun_counted (fun j (drawn : Encoding) => drawn.l = e.l + (i * p + j) ∧
    drawn.skbNew.len = e.skbNew.len) (Nat.zero_le p) ⟨position,length⟩ columns
  refine ⟨ran,?_,same⟩
  rw [next,Nat.succ_mul]

section
variable (positive : 0 < p) (whole : p ∣ codingLen) (short : codingLen < 2 ^ 32) (enough : codingLen ≤ fuel)
include positive whole short enough

theorem blocks_inside (room : etherHeadLen + mncHdrlen + codingLen ≤ size)
    (source : Nat → Nat → UInt8) (coefficient : Nat → Nat → UInt8) (dataNew : Nat) (mem : Nat → UInt8) :
    ∃ after, stepRun codingLen p (fun i => calDataRun true codingLen i (etherHeadLen + mncHdrlen + i) size (source i) p
        coefficient (dataNew + i)) fuel 0 mem = .done after ∧
      forStep codingLen p (fun i => calData (source i) p coefficient (dataNew + i)) mem = some after := by
  obtain ⟨count,rfl⟩ := whole
  have rounds : (p * count + p - 1) / p = count := by rw [Nat.mul_comm,rows_count count positive]
  have bound : count ≤ p * count := Nat.le_mul_of_pos_left count positive
  refine ⟨_,?_,forStep_ends positive _ mem⟩
  rw [stepRun_forRun positive (by rwa [rounds,Nat.mul_comm]) fuel (by omega),rounds]
  refine forRun_same (fun t mem _ block => ?_) mem
  refine forRun_same (fun row mem _ small => ?_) mem
  refine forRun_same (fun j mem _ column => ?_) mem
  have read := position_lt block column
  have write := position_lt block small
  rw [Nat.mul_comm count] at read write
  refine act_inside ?_ true _
  simp only [List.mem_cons,List.not_mem_nil,or_false,forall_eq_or_imp,forall_eq]
  exact ⟨read,small,column,by omega⟩

theorem encodeOne_inside (e : Encoding) (header : 3 + (e.l + p * p) ≤ mncHdrlen)
    (room : etherHeadLen + mncHdrlen + codingLen ≤ e.skbNew.len) (src : Bool) (skb : Skb) :
    ∃ after, encodeOneAccess true fuel src p codingLen mncHdrlen skb e = .done after ∧
      encodeOne src p codingLen mncHdrlen skb e = some after := by
  obtain ⟨_,keeps,_⟩ := draw_block e (e.skbNew.data + etherHeadLen) p
  have length := congrArg Skb.len keeps.packet
  unfold encodeOneAccess encodeOne
  dsimp only at length ⊢
  rw [draws_inside e _ (by omega),Run.done_bind]
  generalize forRange 0 p (fun i e' => forRange 0 p (fun j e' => drawCoefficient (e.skbNew.data + etherHeadLen) i j e') e') e =
    drawn at *
  obtain ⟨mem,ran,stepped⟩ := blocks_inside positive whole short enough (length ▸ room)
    (fun i o => skb.mem (skb.data + (if src then etherHeadLen else 0) + i + o)) drawn.coefficient
    (e.skbNew.data + etherHeadLen + mncHdrlen) drawn.skbNew.mem
  refine ⟨{drawn with skbNew := {drawn.skbNew with mem := mem}},?_,?_⟩
  · rw [ran,Run.done_bind]
  · rw [stepped]

end

theorem calDataRun_outside (low : i ≤ codingLen) (high : codingLen < i + p) (place size : Nat) (data : Nat → UInt8)
    (coefficient : Nat → Nat → UInt8) (dataNew : Nat) (mem : Nat → UInt8) :
    calDataRun true codingLen i place size data p coefficient dataNew mem = .fault := by
  have ends : ∀ row (mem : Nat → UInt8), forRun 0 p (fun j mem =>
      act true [(i + j,codingLen),(row,p),(j,p),(place + row,size)]
        (Function.update mem (dataNew + row) (gadd (mem (dataNew + row)) (gmul (data j) (coefficient row j))))) mem ≠ .going :=
    fun row mem => forRun_ends (fun j mem _ _ => act_ends true _ _) mem
  refine forRun_faults_any (Nat.zero_le 0) (show 0 < p by omega) (fun row mem _ _ => ends row mem) (fun mem => ?_) mem
  refine forRun_faults_any (m := codingLen - i) (Nat.zero_le _) (by omega) (fun j mem _ _ => act_ends true _ _) (fun mem => ?_) mem
  exact act_outside (List.mem_cons_self ..) (by dsimp only; omega) _

theorem encodeOne_outside (partial_block : ¬p ∣ codingLen) (short : codingLen < 2 ^ 32) (fuel : Nat) (src : Bool)
    (mncHdrlen : Nat) (skb : Skb) (e after : Encoding) :
    encodeOneAccess true fuel src p codingLen mncHdrlen skb e ≠ .done after := by
  unfold encodeOneAccess
  dsimp only
  cases forRun 0 p (fun i => forRun 0 p fun j => drawRun true p (e.skbNew.data + etherHeadLen) i j) e with
  | fault | going => exact fun same => by cases same
  | done drawn =>
    rw [Run.done_bind]
    have blocks : ∀ mem, stepRun codingLen p (fun i => calDataRun true codingLen i (etherHeadLen + mncHdrlen + i) drawn.skbNew.len
        (fun o => skb.mem (skb.data + (if src then etherHeadLen else 0) + i + o)) p drawn.coefficient
        (e.skbNew.data + etherHeadLen + mncHdrlen + i)) fuel 0 drawn.skbNew.mem ≠ .done mem := by
      refine stepRun_undone (fun i => p ∣ i ∧ i ≤ codingLen) ?_ ?_ fuel ⟨Nat.dvd_zero p,Nat.zero_le _⟩ _
      · rintro i ⟨multiple,bound⟩
        refine Nat.lt_of_le_of_ne bound fun same => partial_block ?_
        rwa [← same]
      · rintro i mem _ ⟨multiple,bound⟩ ran
        have whole : i + p ≤ codingLen := by
          by_contra beyond
          rw [calDataRun_outside bound (by omega)] at ran
          cases ran
        rw [Nat.mod_eq_of_lt (by omega)]
        exact ⟨Nat.dvd_add multiple (Nat.dvd_refl p),whole⟩
    cases ran : stepRun codingLen p (fun i => calDataRun true codingLen i (etherHeadLen + mncHdrlen + i) drawn.skbNew.len
        (fun o => skb.mem (skb.data + (if src then etherHeadLen else 0) + i + o)) p drawn.coefficient
        (e.skbNew.data + etherHeadLen + mncHdrlen + i)) fuel 0 drawn.skbNew.mem with
    | done mem => exact absurd ran (blocks mem)
    | fault | going => exact fun same => by cases same

theorem prepare_inside (src : Bool) (p k : Nat) (id : UInt8) (s : Skb)
    (room : if src then etherHeadLen ≤ s.len else etherHeadLen ≤ s.data) :
    prepareRun true src p k id s = .done (prepareSkbNew src p k id s) := by
  obtain ⟨_,_,_⟩ := prepare_fields src p k id s room
  refine act_inside ?_ true _
  intro u member
  obtain ⟨o,written,rfl⟩ := List.mem_map.mp member
  rcases List.mem_append.mp written with cleared | field
  · obtain ⟨i,inside,rfl⟩ := List.mem_map.mp cleared
    have bound := List.mem_range.mp inside
    rw [subU32,if_pos (by omega)] at bound
    omega
  · simp only [List.mem_cons,List.not_mem_nil,or_false] at field
    omega

theorem walk_inside (positive : 0 < p) (whole : p ∣ codingLen) (short : codingLen < 2 ^ 32) (blocks : codingLen ≤ fuel)
    (packets : skbs.length ≤ fuel) (src : Bool) (start : Encoding) (position : start.l = 0)
    (room : etherHeadLen + (p * p * skbs.length + 3) + codingLen ≤ start.skbNew.len)
    (same : ∀ s ∈ skbs, first.len = s.len) :
    ∃ e, walkRun (otherLength first) (encodeOneAccess true fuel src p codingLen (p * p * skbs.length + 3)) fuel skbs start =
        .done e ∧
      skbs.foldlM (fun e skb => if first.len ≠ skb.len then none
        else encodeOne src p codingLen (p * p * skbs.length + 3) skb e) start = some e := by
  obtain ⟨e,walked,folded,_⟩ := @walkRun_foldlM _ _ (encodeOneAccess true fuel src p codingLen (p * p * skbs.length + 3)) skbs
    (otherLength first) fuel start
    (fun e skb => if first.len ≠ skb.len then none else encodeOne src p codingLen (p * p * skbs.length + 3) skb e)
    (fun s member => by simp [otherLength,same s member]) packets
    (Encoded src p skbs.length ((codingLen + p - 1) / p) (start.skbNew.data + etherHeadLen) skbs start)
    ⟨by simp [position],rfl,rfl,rfl,fun _ _ => rfl,by simp⟩ (by
      intro i inside e encoded
      have stored : (i + 1) * (p * p) ≤ p * p * skbs.length := by
        rw [Nat.mul_comm (p * p)]
        exact Nat.mul_le_mul_right _ inside
      have length := congrArg Skb.len encoded.packet
      rw [Nat.succ_mul,← encoded.position] at stored
      obtain ⟨after,ran,stepped⟩ := encodeOne_inside positive whole short blocks e
        (show 3 + (e.l + p * p) ≤ p * p * skbs.length + 3 by omega) (by rwa [length]) src skbs[i]
      have here : skbs.getD i default = skbs[i] := by simp [List.getD_eq_getElem?_getD,inside]
      obtain ⟨_,again,next⟩ := encodeOne_next positive inside here encoded
      rw [stepped] at again
      cases again
      rw [if_neg (not_not.mpr (same _ (List.getElem_mem inside)))]
      exact ⟨after,ran,stepped,next⟩)
  exact ⟨e,walked,folded⟩

theorem makeSkbNew_inside (par : TrParam) (encodable : Encodable par.src skbs) (positive : 0 < p) (small : p < 0x100)
    (id : UInt8) (whole : p ∣ (generationOf par.src skbs p id).len) (short : (generationOf par.src skbs p id).len < 2 ^ 32)
    (kernel : Kernel) : ∃ fuel made, makeSkbNewAccess true fuel par skbs p id kernel = .done made ∧
      makeSkbNew par skbs p id kernel = some made := by
  cases skbs with
  | nil => exact absurd rfl encodable.nonempty
  | cons first rest =>
    have same_len := generationOf_len p id encodable
    have exact_len : (generationOf par.src (first :: rest) p id).len =
      if par.src then first.len - etherHeadLen else first.len := rfl
    have room := encodable.room first (by simp)
    obtain ⟨_,length,_⟩ := prepare_fields par.src p (first :: rest).length id {first with id := kernel.nextSkb} room
    have prepared := prepare_inside par.src p (first :: rest).length id {first with id := kernel.nextSkb} room
    rw [← exact_len] at length
    generalize (generationOf par.src (first :: rest) p id).len = codingLen at *
    refine ⟨max codingLen (first :: rest).length,?_⟩
    simp only [makeSkbNewAccess,makeSkbNew,MncTx.codingLen,ge_iff_le,Nat.not_le.mpr encodable.count,Nat.not_le.mpr small,
      if_false,skbCopy]
    rw [← same_len,prepared,Run.done_bind]
    generalize prepareSkbNew par.src p (first :: rest).length id {first with id := kernel.nextSkb} = skbNew at *
    have same : ∀ s ∈ first :: rest, first.len = s.len := fun s member => (encodable.same s member).symm
    obtain ⟨e,walked,folded⟩ := walk_inside positive whole short (Nat.le_max_left codingLen (first :: rest).length)
      (Nat.le_max_right codingLen (first :: rest).length) par.src
      ⟨skbNew,0,fun _ _ => 0,{kernel with nextSkb := kernel.nextSkb + 1}⟩ rfl (Nat.le_of_eq length.symm) same
    exact ⟨_,by rw [walked,Run.done_bind],by rw [folded,Option.map_some]⟩

theorem makeSkbNew_outside (par : TrParam) (encodable : Encodable par.src skbs) (small : p < 0x100) (id : UInt8)
    (partial_block : ¬p ∣ (generationOf par.src skbs p id).len) (short : (generationOf par.src skbs p id).len < 2 ^ 32)
    (fuel : Nat) (kernel : Kernel) (made : Option Skb × Kernel) :
    makeSkbNewAccess true fuel par skbs p id kernel ≠ .done made := by
  cases skbs with
  | nil => exact absurd rfl encodable.nonempty
  | cons first rest =>
    have same_len := generationOf_len p id encodable
    have prepared := prepare_inside par.src p (first :: rest).length id {first with id := kernel.nextSkb}
      (encodable.room first (by simp))
    generalize (generationOf par.src (first :: rest) p id).len = codingLen at *
    simp only [makeSkbNewAccess,MncTx.codingLen,ge_iff_le,Nat.not_le.mpr encodable.count,Nat.not_le.mpr small,if_false,skbCopy]
    rw [← same_len,prepared,Run.done_bind]
    have never := fun skb s t => encodeOne_outside partial_block short fuel par.src (p * p * (first :: rest).length + 3) skb s t
    cases walked : walkRun (otherLength first) (encodeOneAccess true fuel par.src p codingLen (p * p * (first :: rest).length + 3))
        fuel (first :: rest) ⟨prepareSkbNew par.src p (first :: rest).length id {first with id := kernel.nextSkb},0,fun _ _ => 0,
          {kernel with nextSkb := kernel.nextSkb + 1}⟩ with
    | done e => exact absurd walked (walkRun_undone (never first) fuel rest _ e)
    | fault | going => exact fun same => by cases same

end Inside

end MncTx

namespace MncRx

theorem regular_distinct (positive : 0 < p) (count : pkts.length = k) (regular : Regular k p pkts) : Distinct pkts := by
  rw [Distinct,List.Nodup,List.pairwise_map,List.pairwise_filter,List.pairwise_iff_getElem]
  intro a b low high _ plain_a plain_b same
  have row_a := MncTx.position_lt (show a < k by omega) positive
  have row_b := MncTx.position_lt (show b < k by omega) positive
  refine regular (Matrix.det_zero_of_row_eq (i := ⟨a * p + 0,row_a⟩) (j := ⟨b * p + 0,row_b⟩) ?_ ?_)
  · intro equal
    have rows := (MncTx.position_inj positive positive (Fin.mk.inj equal)).1
    omega
  · funext c
    simp only [Bool.not_eq_true'] at plain_a plain_b
    simp only [LinearSystems.square,Matrix.of_apply,LuFac.field,coefficientMatrix_row low positive,
      coefficientMatrix_row high positive,coefficientRow,same,plain_a,plain_b,Bool.false_eq_true,if_false]

end MncRx

namespace Generation

-- All bytes of every missing original, for any k packets whose coefficients can be inverted.
def Recovers (G : Generation) : Prop :=
  ∀ (pkts : List Skb) (kernel : Kernel), G.k ≤ 63 → G.p ≤ 3 → pkts.length = G.k →
    (∀ s ∈ pkts, ∃ wire, G.Sent wire ∧ Arrives wire s) → MncRx.Regular G.k G.p pkts →
    ∃ d, MncRx.skbsDecoding pkts G.kp kernel = some d ∧ d.ok = true ∧
      d.newskbs.map Prod.fst = (List.range G.k).filter (fun i => ∀ s ∈ pkts, MncRx.mindex s ≠ i) ∧
      ∀ i s, (i,s) ∈ d.newskbs → s.len = G.len ∧ ∀ o < G.len, s.byte o = G.originals i o

theorem recovers (G : Generation) (some_packets : 1 ≤ G.k) (positive : 1 ≤ G.p) (whole : G.p ∣ G.len) : G.Recovers := by
  intro _ kernel count_bound size_bound count received regular
  obtain ⟨d,ran,ok,missing,content⟩ := decodes some_packets count_bound positive size_bound count received
    (MncRx.regular_distinct positive count regular) regular kernel
  have all : G.whole = G.len := Nat.mul_div_cancel' whole
  rw [all] at content
  exact ⟨d,ran,ok,missing,content⟩

end Generation

theorem trailing_block (G : Generation) (par : TrParam) (skbs : List Skb) (carries : G.Carries par.src skbs)
    (positive : 1 ≤ G.p) (small : G.p < 0x100) (short : G.len < 2 ^ 32) (kernel : Kernel) :
    ((∃ fuel made, MncTx.makeSkbNewAccess true fuel par skbs G.p G.eid kernel = .done made ∧
        MncTx.makeSkbNew par skbs G.p G.eid kernel = some made) ∧ G.Recovers) ↔ G.p ∣ G.len := by
  have length := carries.length
  constructor
  · rintro ⟨⟨fuel,made,ran,_⟩,_⟩
    by_contra partial_block
    refine MncTx.makeSkbNew_outside par carries.encodable small G.eid ?_ ?_ fuel kernel made ran
    · rwa [length]
    · rwa [length]
  · intro whole
    have some_packets : 1 ≤ G.k := by
      rw [← carries.count]
      exact List.length_pos_of_ne_nil carries.encodable.nonempty
    refine ⟨MncTx.makeSkbNew_inside par carries.encodable positive small G.eid ?_ ?_ kernel,
      G.recovers some_packets positive whole⟩
    · rwa [length]
    · rwa [length]

namespace TrailingSample

def generation : Generation := ⟨2,MncTx.P,28,1,fun _ o => (MncTx.EncodeSample.packet 42).byte (14 + o)⟩
def packets : List Skb := [MncTx.EncodeSample.packet 42,MncTx.EncodeSample.packet 42]

theorem carries : generation.Carries MncTx.EncodeSample.par.src packets :=
  ⟨⟨by decide,by decide,by decide,by decide⟩,rfl,by decide,by decide⟩

end TrailingSample

open TrailingSample in
theorem trailing_block_sample :
    ((∃ fuel made, MncTx.makeSkbNewAccess true fuel MncTx.EncodeSample.par packets 2 1 MncTx.EncodeSample.kernel = .done made ∧
        MncTx.makeSkbNew MncTx.EncodeSample.par packets 2 1 MncTx.EncodeSample.kernel = some made) ∧
      generation.Recovers) ↔ 2 ∣ 28 :=
  trailing_block generation MncTx.EncodeSample.par packets carries (by decide) (by decide) (by decide) MncTx.EncodeSample.kernel

theorem odd_payload_outside : MncTx.portnum (MncTx.EncodeSample.packet 43) = 5555 ∧
    ¬∃ fuel made, MncTx.makeSkbNewAccess true fuel MncTx.EncodeSample.par [MncTx.EncodeSample.packet 43] MncTx.P 1
      MncTx.EncodeSample.kernel = .done made := by
  refine ⟨rfl,fun ⟨fuel,made,ran⟩ => ?_⟩
  refine MncTx.makeSkbNew_outside MncTx.EncodeSample.par ⟨by decide,by decide,by decide,by decide⟩ (by decide) 1 (by decide)
    (by decide) fuel _ made ran

end Mac80211

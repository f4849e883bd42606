import Mac80211.MncCompletion
import Mac80211.MncOwnership

namespace Mac80211.MncRx
open Loops
open LinkedList
open List (mem_range mem_append mem_singleton mem_map)

structure Slots.Each (holds : Skb → Prop) (s : Slots) : Prop where
  skbs : ∀ t ∈ s.skbs, holds t
  skb : ∀ m t, s.skb m = some t → holds t

section Each

variable {holds : Skb → Prop}

theorem occupied_each (each : ∀ m t, skb m = some t → holds t) (k : Nat) :
    ∀ t ∈ occupied k skb, holds t := by
  intro t member
  obtain ⟨m,_,here⟩ := List.mem_filterMap.mp member
  exact each m t here

theorem update_each (each : ∀ m t, skb m = some t → holds t)
    (fresh : ∀ t, new = some t → holds t) (i : Nat) : ∀ m t, Function.update skb i new m = some t → holds t := by
  intro m t here
  by_cases same : m = i
  · subst m
    rw [Function.update_self] at here
    exact fresh t here
  · rw [Function.update_of_ne same] at here
    exact each m t here

def Kept (holds : Skb → Prop) : Except Stop Slots → Prop
  | .ok s => s.Each holds
  | .error .null => True
  | .error (.duplicate skbs _) => ∀ t ∈ skbs, holds t

theorem placeSystematic_each (each : s.Each holds) (k : Nat) : Kept holds (placeSystematic k s) := by
  unfold placeSystematic
  cases queue : s.skbs with
  | nil => exact trivial
  | cons skbTemp rest =>
    have first : holds skbTemp := each.skbs skbTemp (by simp [queue])
    have others : ∀ t ∈ rest, holds t := fun t member => each.skbs t (by simp [queue,member])
    dsimp only
    split
    · split
      · intro t member
        exact (mem_append.mp member).elim (others t) (occupied_each each.skb k t)
      · exact ⟨others,update_each each.skb (fun t same => by cases same; exact first) _⟩
    · refine ⟨fun t member => ?_,each.skb⟩
      rcases mem_append.mp member with early | last
      · exact others t early
      · rw [mem_singleton.mp last]
        exact first

theorem fillCoded_each (each : s.Each holds) (i : Nat) : (fillCoded i s).Each holds := by
  unfold fillCoded
  split
  · exact each
  · refine ⟨fun t member => each.skbs t (List.mem_of_mem_tail member),update_each each.skb ?_ i⟩
    intro t head
    exact each.skbs t (List.mem_of_mem_head? head)

theorem solveSlots_each (each : s.Each holds) (ran : solveSlots k p s kernel = some d) : ∀ t ∈ d.skbs, holds t := by
  unfold solveSlots at ran
  dsimp only at ran
  generalize LuFac.luFac (k * p) (k * p) _ = lu at ran
  have kept : ∀ m t, (forRange 0 (k * p) (checkRank p lu) ⟨k * p,s.skb,kernel⟩).skb m = some t → holds t := by
    refine forRange_keeps (fun r : Rank => ∀ m t, r.skb m = some t → holds t) each.skb ?_
    intro i r _ _ each
    unfold checkRank
    split
    · exact update_each each (fun t none_left => by cases none_left) _
    · exact each
  split at ran
  · cases ran
    intro t member
    exact (mem_append.mp member).elim (each.skbs t) (occupied_each kept k t)
  · split at ran
    · cases ran
    · cases ran
      exact each.skbs

theorem skbsDecoding_each (each : ∀ s ∈ pkts, holds s) (ran : skbsDecoding pkts kp kernel = some d) :
    ∀ t ∈ d.skbs, holds t := by
  have loop : (∀ s, forTry 0 (kp >>> 2).toNat (fun _ => placeSystematic (kp >>> 2).toNat)
      ⟨pkts,fun _ => false,fun _ => none⟩ = .ok s → s.Each holds) ∧
      ∀ e, forTry 0 (kp >>> 2).toNat (fun _ => placeSystematic (kp >>> 2).toNat)
        ⟨pkts,fun _ => false,fun _ => none⟩ = .error e → Kept holds (.error e) := by
    refine forTry_rule (fun _ (s : Slots) => s.Each holds) _ (Nat.zero_le _) ⟨each,fun m t none_yet => (by cases none_yet)⟩ ?_
    intro i s _ _ each
    have kept := placeSystematic_each each (kp >>> 2).toNat
    exact ⟨fun t placed => by rwa [placed] at kept,fun e stopped => by rwa [stopped] at kept⟩
  unfold skbsDecoding at ran
  dsimp only at ran
  split at ran
  · cases ran
  · rename_i stopped
    cases ran
    exact loop.2 _ stopped
  · rename_i slots placed
    split at ran
    · cases ran
    · exact solveSlots_each (forRange_keeps (fun s : Slots => s.Each holds) (loop.1 _ placed) fun i s _ _ each =>
        fillCoded_each each i) ran

end Each

structure RelayParam (par : TrParam) : Prop where
  src : par.src = false
  sys : par.sys = false

theorem relay_sends (mode : RelayParam par) (same : ∀ s ∈ newskbs, s.len = len) (room : ∀ s ∈ newskbs, etherHeadLen ≤ s.data)
    (count : newskbs.length < 0x1000000) (rdev : NetDevice) (eid : UInt8) (kernel : Kernel) :
    ∃ wires after, relay par newskbs rdev eid kernel = some after ∧ transmitted after.log = transmitted kernel.log ++ wires ∧
      (wires = [] ↔ par.dataN = 0 ∨ newskbs = []) ∧
      ∀ wire ∈ wires, (MncTx.generationOf false newskbs MncTx.P eid).Coded (skbPull wire etherHeadLen) := by
  by_cases zero : par.dataN = 0
  · refine ⟨[],kernel,if_neg (by simp [zero]),by simp,by simp [zero],fun _ none_sent => (nomatch none_sent)⟩
  have active : par.dataN > 0 ∧ par.src = false := ⟨UInt8.pos_iff_ne_zero.mpr zero,mode.src⟩
  obtain ⟨wires,middle,encoded,empty,coded⟩ : ∃ wires middle,
      MncTx.encodedPackets par newskbs eid kernel = some (wires,middle) ∧ (wires = [] ↔ newskbs = []) ∧
      ∀ wire ∈ wires, (MncTx.generationOf false newskbs MncTx.P eid).Coded (skbPull wire etherHeadLen) := by
    rw [MncTx.encodedPackets,if_neg (by simp [mode.sys])]
    cases newskbs with
    | nil => exact ⟨[],kernel,MncTx.codedPackets_empty .., by simp,fun _ none_sent => (nomatch none_sent)⟩
    | cons first rest =>
      have encodable : MncTx.Encodable par.src (first :: rest) := by
        refine ⟨by simp,count,fun s member => ?_,fun s member => ?_⟩
        · rw [same s member]
          exact (same first (by simp)).symm
        · rw [mode.src]
          exact room s member
      obtain ⟨wires,middle,ran,length,_,coded⟩ := MncTx.codedPackets_coded par encodable eid par.dataN.toNat [] kernel
      rw [mode.src] at coded
      refine ⟨wires,middle,ran,?_,coded⟩
      have positive : par.dataN.toNat ≠ 0 := fun none_sent => zero (UInt8.toNat_inj.mp none_sent)
      rw [← List.length_eq_zero_iff,length]
      simp [positive]
  have sent : MncTx.mncEncodingTx par newskbs rdev eid 0 kernel =
      some (0,{middle with log := kernel.log ++ wires.map fun skb => .sent skb rdev}) := by
    rw [MncTx.mncEncodingTx,encoded]
    simp only [mode.src,MncTx.sends_log,MncTx.encodedPackets_log encoded]
    rfl
  refine ⟨wires,{middle with log := kernel.log ++ wires.map fun skb => .sent skb rdev},?_,?_,?_,coded⟩
  · rw [relay,if_pos active,sent]
    rfl
  · rw [transmitted_append,transmitted_sent]
  · simp [zero,empty]

def Each (holds : Skb → Prop) (a : Queues) : Prop := ∀ q ∈ a.queues, ∀ s ∈ q.skbs, holds s

theorem accepts_each (renamed : ∀ s buffer, holds s → holds {s with id := buffer}) (each : Each holds a) (new : holds skb)
    (accepts : Accepts now skb a before q after filled kernel) :
    (∀ s ∈ filled.skbs, holds s) ∧ ∀ r ∈ before ++ after, ∀ s ∈ r.skbs, holds s := by
  obtain ⟨buffer,_,rfl⟩ := queuePacket_adds accepts.queued
  refine ⟨fun s member => ?_,fun r member => each r (opens_others accepts.opens member)⟩
  rcases mem_append.mp member with old | last
  · rcases opens_old accepts.opens with here | ⟨rfl,_⟩
    · exact each q here s old
    · cases old
  · rw [mem_singleton.mp last]
    exact renamed skb buffer new

theorem takes_each (renamed : ∀ s buffer, holds s → holds {s with id := buffer}) (each : Each holds a) (new : holds skb)
    (takes : Takes par now skb a b) : Each holds b := by
  cases takes with
  | closed => exact fun q member => each q (List.mem_filter.mp member).1
  | wrongKp _ opens other => exact fun r member => each r (opens_wrong opens other member)
  | waiting accepts =>
    obtain ⟨full,others⟩ := accepts_each renamed each new accepts
    intro r member
    rcases mem_middle member with rfl | inside
    · exact full
    · exact others r inside
  | systematic accepts | decoded accepts => exact (accepts_each renamed each new accepts).2
  | failed accepts full sys ran =>
    obtain ⟨filled,others⟩ := accepts_each renamed each new accepts
    intro r member
    rcases mem_middle member with rfl | inside
    · exact skbsDecoding_each filled ran
    · exact others r inside

theorem receives_each (renamed : ∀ s buffer, holds s → holds {s with id := buffer}) (each : Each holds a)
    (new : ethertype e.skb = 0x0810 → holds e.packet) (receives : Receives e a b) : Each holds b := by
  cases receives with
  | other | control => exact each
  | mnc skb buffer kind takes =>
    subst buffer
    have arrived := renamed e.packet a.kernel.nextSkb (new kind)
    exact takes_each (a := {a with kernel := {a.kernel with nextSkb := a.kernel.nextSkb + 1}}) renamed each arrived takes

def Forwards (G : Generation) (wire : Skb) : Prop :=
  G.Coded (skbPull wire etherHeadLen) ∧ ∀ now a, G.eid ∉ a.lastDid.toList → (openedQueue a.queues now G.eid G.kp).kp = G.kp →
    Taken now (skbPull wire etherHeadLen) a

theorem forwards_coded (coded : G.Coded (skbPull wire etherHeadLen)) : Forwards G wire := by
  refine ⟨coded,fun now a fresh same => ⟨?_,?_⟩⟩
  · rwa [coded.eid]
  · rw [met,coded.eid,coded.kp]
    exact same

-- A relayed packet has the block size P of the relay, so it is in the code only where the source used P too.
theorem forwards_sizes (sized : Sized G) (fewer : skbs.length ≤ G.k)
    (coded : (MncTx.generationOf false skbs MncTx.P G.eid).Coded (skbPull wire etherHeadLen)) (forwards : Forwards G wire) :
    skbs.length = G.k ∧ G.p = MncTx.P := by
  have same : MncTx.kpByte skbs.length MncTx.P = MncTx.kpByte G.k G.p := coded.kp.symm.trans forwards.1.kp
  have count := sized.count
  have block := sized.block
  obtain ⟨k_left,p_left⟩ := Generation.kpByte_parts skbs.length (by omega) MncTx.P (by decide)
  obtain ⟨k_right,p_right⟩ := Generation.kpByte_parts G.k (by omega) G.p (by omega)
  rw [same] at k_left p_left
  exact ⟨k_left.symm.trans k_right,p_right.symm.trans p_left⟩

theorem solved_forwards (sized : Sized G) (belongs : ∀ s ∈ pkts, G.Packet s)
    (solved : Solved G.k G.p pkts kernel isSys skb newskb len) (whole : ∀ i < G.k, isSys i = false) (size : G.p = MncTx.P)
    (coded : (MncTx.generationOf false ((List.range G.k).map fun i => skbTrim (newskb i) len) MncTx.P G.eid).Coded s) :
    G.Coded s := by
  obtain ⟨length,content⟩ := Generation.solved_content solved belongs sized.some_packets sized.count sized.positive
  have slot : ∀ i < G.k, ((List.range G.k).map fun i => skbTrim (newskb i) len).getD i default = skbTrim (newskb i) len := by
    intro i small
    rw [List.getD_eq_getElem?_getD,List.getElem?_map,List.getElem?_range small]
    rfl
  have trimmed : ∀ i < G.k, (skbTrim (newskb i) len).len = G.len := by
    intro i small
    obtain ⟨long,_⟩ := content i small
    rw [skbTrim_len _ (by rw [long (whole i small),length]; omega),length]
  have some_packets := sized.some_packets
  refine Generation.coded_agrees coded ?_ size.symm ?_ rfl fun i small o inside => ?_
  · simp [MncTx.generationOf]
  · simp only [MncTx.generationOf,Bool.false_eq_true,if_false]
    rw [slot 0 some_packets,trimmed 0 some_packets]
  · have here : (MncTx.generationOf false ((List.range G.k).map fun i => skbTrim (newskb i) len) MncTx.P G.eid).originals i o =
        (skbTrim (newskb i) len).byte o := by
      simp only [MncTx.generationOf,slot i small,MncTx.codingByte,Skb.byte,Bool.false_eq_true,if_false,Nat.add_zero]
    rw [here,skbTrim_byte]
    exact (content i small).2 o inside

theorem solved_received (solved : Solved k p pkts kernel isSys skb newskb len) (bound : k ≤ 0x3f) (small : i < k) :
    isSys i = true ↔ ∃ s ∈ pkts, mindex s = i := by
  constructor
  · intro mark
    have index := solved.index i small
    rw [mark,if_pos rfl] at index
    exact ⟨skb i,solved.packets.mem_iff.mp (List.mem_map_of_mem (mem_range.mpr small)),index⟩
  rintro ⟨s,member,here⟩
  obtain ⟨j,inside,rfl⟩ := mem_map.mp (solved.packets.mem_iff.mpr member)
  have index := solved.index j (mem_range.mp inside)
  cases mark : isSys j with
  | true =>
    rw [mark,if_pos rfl] at index
    rw [← here,index]
    exact mark
  | false =>
    rw [mark,if_neg (by decide)] at index
    omega

theorem solved_coded (solved : Solved k p pkts kernel isSys skb newskb len) (bound : k ≤ 0x3f) :
    (∀ i < k, isSys i = false) ↔ ∀ s ∈ pkts, mindex s = 0x3f := by
  constructor
  · intro none_sys s member
    obtain ⟨j,inside,rfl⟩ := mem_map.mp (solved.packets.mem_iff.mpr member)
    have small := mem_range.mp inside
    have index := solved.index j small
    rwa [none_sys j small,if_neg (by decide)] at index
  · intro coded i small
    cases mark : isSys i with
    | false => rfl
    | true =>
      obtain ⟨s,member,_⟩ := (solved_received solved bound small).mp mark
      have other := coded s member
      omega

def InCode (G : Generation) (dataN : UInt8) (pkts : List Skb) : Prop :=
  dataN = 0 ∨ (∀ i < G.k, ∃ s ∈ pkts, mindex s = i) ∨ G.p = MncTx.P ∧ ∀ s ∈ pkts, mindex s = 0x3f

theorem solved_relay (sized : Sized G) (belongs : ∀ s ∈ pkts, G.Packet s)
    (solved : Solved G.k G.p pkts kernel isSys skb newskb len) (mode : RelayParam par)
    (room : ∀ s ∈ pkts, etherHeadLen ≤ s.data) (rdev : NetDevice) (before : Kernel) :
    ∃ wires after, relay par (((List.range G.k).filter fun i => !isSys i).map fun i => skbTrim (newskb i) len) rdev G.eid before =
        some after ∧ transmitted after.log = transmitted before.log ++ wires ∧
      ((∀ wire ∈ wires, Forwards G wire) ↔ InCode G par.dataN pkts) := by
  obtain ⟨length,content⟩ := Generation.solved_content solved belongs sized.some_packets sized.count sized.positive
  have count := sized.count
  have trimmed : ∀ s ∈ ((List.range G.k).filter fun i => !isSys i).map fun i => skbTrim (newskb i) len,
      s.len = len ∧ etherHeadLen ≤ s.data := by
    intro s member
    obtain ⟨i,inside,rfl⟩ := mem_map.mp member
    obtain ⟨range,mark⟩ := List.mem_filter.mp inside
    have small := mem_range.mp range
    obtain ⟨long,_⟩ := content i small
    refine ⟨skbTrim_len _ (by rw [long (by simpa using mark),length]; omega),?_⟩
    have place : (skbTrim (newskb i) len).data = (skb i).data := by
      rw [skbTrim_data,solved.copies i small]
    rw [place]
    exact room _ (solved.packets.mem_iff.mp (List.mem_map_of_mem range))
  have fewer := List.length_filter_le (fun i => !isSys i) (List.range G.k)
  rw [List.length_range] at fewer
  obtain ⟨wires,after,ran,sent,silent,coded⟩ := relay_sends mode (fun s member => (trimmed s member).1)
    (fun s member => (trimmed s member).2) (by rw [List.length_map]; omega) rdev G.eid before
  refine ⟨wires,after,ran,sent,?_⟩
  have missing : (List.range G.k).filter (fun i => !isSys i) = [] ↔ ∀ i < G.k, ∃ s ∈ pkts, mindex s = i := by
    rw [List.filter_eq_nil_iff]
    simp only [mem_range,Bool.not_eq_true',Bool.not_eq_false]
    exact forall₂_congr fun i small => solved_received solved count small
  rw [List.map_eq_nil_iff,missing] at silent
  constructor
  · intro forwards
    by_cases nothing : wires = []
    · rcases silent.mp nothing with zero | all
      · exact .inl zero
      · exact .inr (.inl all)
    · obtain ⟨wire,member⟩ := List.exists_mem_of_ne_nil wires nothing
      obtain ⟨same,size⟩ := forwards_sizes sized (by rw [List.length_map]; exact fewer) (coded wire member) (forwards wire member)
      refine .inr (.inr ⟨size,(solved_coded solved count).mp fun i small => ?_⟩)
      have all : (List.range G.k).filter (fun i => !isSys i) = List.range G.k :=
        List.filter_sublist.eq_of_length (by rw [← @List.length_map _ _ _ fun i => skbTrim (newskb i) len,same,List.length_range])
      simpa using List.filter_eq_self.mp all i (mem_range.mpr small)
  rintro (zero | all | ⟨size,none_sys⟩)
  · rw [silent.mpr (.inl zero)]
    exact fun wire none_sent => (nomatch none_sent)
  · rw [silent.mpr (.inr all)]
    exact fun wire none_sent => (nomatch none_sent)
  · have whole := (solved_coded solved count).mpr none_sys
    have all : (List.range G.k).filter (fun i => !isSys i) = List.range G.k :=
      List.filter_eq_self.mpr fun i inside => by simp [whole i (mem_range.mp inside)]
    rw [all] at coded
    exact fun wire member => forwards_coded (solved_forwards sized belongs solved whole size (coded wire member))

theorem queuePacket_silent (queued : queuePacket skb q kernel = (filled,after)) :
    transmitted after.log = transmitted kernel.log := by
  unfold queuePacket at queued
  split at queued
  · cases queued
    simp [netifReceiveSkb,Kernel.record,transmitted,Fate.wire]
  · cases queued
    rfl

theorem outcome_silent (outcome : Outcome k p pkts kernel d) : transmitted d.kernel.log = transmitted kernel.log := by
  cases outcome with
  | duplicate => simp [Kernel.record,transmitted,Fate.wire]
  | dependent => simp
  | solved => simp [transmitted,Fate.wire]

theorem deliver_silent (eid : UInt8) (newskbs : List (Nat × Skb)) (kernel : Kernel) :
    transmitted (deliver eid newskbs kernel).log = transmitted kernel.log := by
  simp [deliver_log,transmitted,Fate.wire]

structure Finishes (G : Generation) (now : UInt64) (skb : Skb) (a : Queues) : Prop where
  packet : G.Packet skb
  together : ∀ p ∈ (met now skb a).skbs, G.Packet p
  taken : Taken now skb a
  completes : Completes now skb a

theorem finishes_renamed (finishes : Finishes G now skb a) (buffer : Nat) :
    Finishes G now {skb with id := buffer} a := by
  refine ⟨packet_renamed finishes.packet buffer,finishes.together,finishes.taken,finishes.completes.full,
    finishes.completes.mixed,?_,?_⟩
  · exact (distinct_renamed _ skb buffer).mpr finishes.completes.distinct
  · exact (regular_renamed _ skb buffer).mpr finishes.completes.regular

theorem inCode_renamed (xs : List Skb) (skb : Skb) (buffer : Nat) :
    InCode G n (xs ++ [{skb with id := buffer}]) ↔ InCode G n (xs ++ [skb]) := by
  have same : ∀ i, mindex {skb with id := buffer} = i ↔ mindex skb = i := fun i => Iff.rfl
  simp only [InCode,mem_append,mem_singleton,or_imp,or_and_right,forall_and,exists_or,forall_eq,exists_eq_left,same]

section
variable {G : Generation} {skb : Skb} (sized : Sized G) (finishes : Finishes G now skb a) (valid : ValidQueues a.queues)
  (room : Each (fun s => etherHeadLen ≤ s.data) a) (place : etherHeadLen ≤ skb.data) (mode : RelayParam par)
include G skb sized finishes valid room place mode

theorem finishes_relay
    (accepts : Accepts now skb a before q after filled kernel) (full : filled.skbs.length = kOf (skb.byte 0))
    (ran : skbsDecoding filled.skbs (skb.byte 0) kernel = some d) :
    d.ok = true ∧ ∃ wires relayed, relay par (d.newskbs.map Prod.snd) skb.dev (skb.byte 1) d.kernel = some relayed ∧
      transmitted relayed.log = transmitted a.kernel.log ++ wires ∧
      ((∀ wire ∈ wires, Forwards G wire) ↔ InCode G par.dataN ((met now skb a).skbs ++ [skb])) := by
  obtain ⟨kp,eid⟩ := packet_header finishes.packet
  obtain ⟨k_eq,p_eq⟩ := sized_kp sized
  have outcome := accepts_outcome accepts (packet_fits finishes.packet sized) valid full ran
  have silent := outcome_silent outcome
  rw [queuePacket_silent accepts.queued,show transmitted (a.expire now).kernel.log = _ from transmitted_purge _ _] at silent
  obtain ⟨held,_⟩ := @accepts_each (fun s => etherHeadLen ≤ s.data) _ _ _ _ _ _ _ _ (fun _ _ here => here) room place accepts
  obtain ⟨same,_⟩ := accepts_met accepts
  obtain ⟨buffer,_,rfl⟩ := queuePacket_adds accepts.queued
  rw [same] at held outcome
  have belongs : ∀ s ∈ (met now skb a).skbs ++ [{skb with id := buffer}], G.Packet s := by
    intro s member
    rcases mem_append.mp member with old | new
    · exact finishes.together s old
    · rw [mem_singleton.mp new]
      exact packet_renamed finishes.packet buffer
  have distinct := (distinct_renamed _ skb buffer).mpr finishes.completes.distinct
  have regular := (regular_renamed _ skb buffer).mpr finishes.completes.regular
  rw [kp,k_eq,p_eq] at outcome regular
  cases outcome with
  | duplicate repeated => exact absurd distinct repeated
  | dependent _ singular => exact absurd regular singular
  | @solved isSys slots newskb len _ _ solved =>
    obtain ⟨wires,relayed,sent,log,iff⟩ := solved_relay sized belongs solved mode held skb.dev _
    refine ⟨rfl,wires,relayed,?_,by rw [log,silent],iff.trans (inCode_renamed _ skb buffer)⟩
    rw [eid,List.map_map]
    exact sent

-- The packet completes its queue, so of all ways to be taken only the decoding one is left.
theorem finishes_takes (takes : Takes par now skb a b) :
    ∃ wires, transmitted b.kernel.log = transmitted a.kernel.log ++ wires ∧
      ((∀ wire ∈ wires, Forwards G wire) ↔ InCode G par.dataN ((met now skb a).skbs ++ [skb])) := by
  have count : ∀ before q after filled kernel, Accepts now skb a before q after filled kernel →
      filled.skbs.length = kOf (skb.byte 0) := by
    intro _ q _ _ _ accepts
    obtain ⟨_,_,_,_,more,_⟩ := accepts_filled accepts (packet_fits finishes.packet sized) valid
    rw [more,(accepts_met accepts).1]
    exact finishes.completes.full
  cases takes with
  | closed old => exact absurd old finishes.taken.1
  | wrongKp _ opens other =>
    rw [opens_opened opens] at other
    exact absurd finishes.taken.2 other
  | waiting accepts short => exact absurd (count _ _ _ _ _ accepts) short
  | systematic accepts full sys =>
    obtain ⟨same,_⟩ := accepts_met accepts
    obtain ⟨mark,systematic⟩ := queuePacket_sys accepts.queued sys
    rw [same] at mark
    rcases finishes.completes.mixed with other | coded
    · rw [mark] at other
      cases other
    · exact absurd coded systematic
  | failed accepts full sys ran bad =>
    obtain ⟨ok,_⟩ := finishes_relay sized finishes valid room place mode accepts full ran
    rw [bad] at ok
    cases ok
  | decoded accepts full sys ran ok sent =>
    obtain ⟨_,wires,_,again,log,iff⟩ := finishes_relay sized finishes valid room place mode accepts full ran
    rw [sent] at again
    cases again
    refine ⟨wires,?_,iff⟩
    rw [transmitted_purge,deliver_silent,log]

end

theorem relay_reencodes {G : Generation} (run : Runs random (fun e _ => e.Framed) s) (kind : ethertype e.skb = 0x0810)
    (framed : e.Framed) (mode : RelayParam e.par) (sized : Sized G) (finishes : Finishes G e.jiffies e.packet s.view) :
    ∃ t wires, receive e s = some t ∧ transmitted t.kernel.log = transmitted s.kernel.log ++ wires ∧
      ((∀ wire ∈ wires, Forwards G wire) ↔
        InCode G e.par.dataN ((met e.jiffies e.packet s.view).skbs ++ [e.packet])) := by
  have place : ∀ e : Arrival, e.Framed → etherHeadLen ≤ e.packet.data := fun e framed =>
    Nat.le_trans (Nat.le_add_left 14 _) (Nat.le_of_eq framed.header)
  obtain ⟨a,represents,valid,room⟩ := runs_keep (Each fun s => etherHeadLen ≤ s.data) (fun _ none_yet => (nomatch none_yet))
    (fun e s a b _ _ each _ framed receives => receives_each (fun _ _ here => here) each
      (fun kind => place e (framed kind)) receives) run
  rw [represents_view represents] at finishes ⊢
  have arrived : Finishes G e.jiffies (stripEthertype {e.skb with id := a.kernel.nextSkb})
      {a with kernel := {a.kernel with nextSkb := a.kernel.nextSkb + 1}} := by
    obtain ⟨packet,together,taken,full,mixed,distinct,regular⟩ := finishes_renamed finishes a.kernel.nextSkb
    exact ⟨packet,together,taken,full,mixed,distinct,regular⟩
  have fits : e.Fits := fun _ => packet_fits finishes.packet sized
  have inside : etherHeadLen ≤ (stripEthertype {e.skb with id := a.kernel.nextSkb}).data := place e framed
  obtain ⟨t,ran⟩ := receive_relays represents valid fits fun _ before q after filled kernel d accepts full ran _ => by
    obtain ⟨_,wires,relayed,sent,_⟩ := finishes_relay (a := {a with kernel := {a.kernel with nextSkb := a.kernel.nextSkb + 1}})
      sized arrived valid room inside mode accepts full ran
    exact ⟨relayed,sent⟩
  obtain ⟨b,receives,after⟩ := receive_receives represents ran
  cases receives with
  | other skb buffer other => subst buffer; exact absurd kind other.1
  | control skb buffer control =>
      subst buffer
      have control : ethertype e.skb = 0x0811 := control
      rw [kind] at control
      exact absurd control (by decide)
  | mnc skb buffer _ takes =>
      subst buffer
      obtain ⟨wires,log,iff⟩ := finishes_takes (a := {a with kernel := {a.kernel with nextSkb := a.kernel.nextSkb + 1}})
        sized arrived valid room inside mode takes
      refine ⟨t,wires,ran,?_,iff.trans (inCode_renamed _ e.packet a.kernel.nextSkb)⟩
      rw [after.kernel,represents.kernel]
      exact log

namespace RelaySample
open LinearSystems

def generation : Generation := ⟨2,2,2,7,fun i o => if i = 0 then (if o = 0 then 5 else 6) else if o = 0 then 9 else 8⟩
def relayParam : TrParam := trSetParam false false 2 1 0 0 0
def first : Arrival := {sampleFrame [0x0a,7,0,5,6] with par := relayParam}
def second : Arrival := {sampleFrame [0x0a,7,0xfc,0,0,0,0,1,0,0,1,9,8] with par := relayParam}
def waiting : State := (receive first sampleStart).getD sampleStart
def relayed : State := (receive second waiting).getD sampleStart
def wire : Skb := (transmitted relayed.kernel.log).getD 0 default

theorem first_packet : generation.Systematic 0 first.packet :=
  ⟨by decide,by decide,by decide,by decide,by decide,by decide⟩

theorem second_packet : generation.Coded second.packet :=
  ⟨by decide,by decide,by decide,by decide,by decide⟩

theorem begun : Runs (fun _ => 0) (fun e _ => e.Framed) waiting := by
  have fits : first.Fits := fun _ => ⟨by decide,by decide⟩
  exact .step .start fits (fun _ => ⟨rfl,by decide⟩) rfl

theorem only_first : (met 0 second.packet waiting.view).skbs = [{first.packet with id := 1}] := rfl

theorem finishes : Finishes generation 0 second.packet waiting.view := by
  refine ⟨.inr second_packet,?_,⟨by decide,rfl⟩,rfl,.inr rfl,?_,?_⟩
  · intro p member
    rw [only_first,mem_singleton] at member
    subst member
    exact .inl ⟨0,Generation.systematic_transfer first_packet rfl fun _ _ => rfl⟩
  · rw [only_first]
    decide
  · rw [only_first]
    have det : (square 4 (LuFac.field (coefficientMatrix 2 [{first.packet with id := 1},second.packet]))).det ≠ 0 := by
      decide
    exact det

theorem sized : Sized generation := ⟨by decide,by decide,by decide,by decide⟩

end RelaySample

open RelaySample in
theorem relay_reencodes_sample : ∃ t wires, receive second waiting = some t ∧
    transmitted t.kernel.log = transmitted waiting.kernel.log ++ wires ∧
    ((∀ wire ∈ wires, Forwards generation wire) ↔
      InCode generation 1 ((met 0 second.packet waiting.view).skbs ++ [second.packet])) :=
  relay_reencodes begun rfl ⟨rfl,by decide⟩ ⟨rfl,rfl⟩ sized finishes

open RelaySample in
theorem relay_leaves_code : Reached (fun _ => 0) waiting ∧ RelayParam second.par ∧ Finishes generation 0 second.packet waiting.view ∧
    receive second waiting = some relayed ∧
    transmitted relayed.kernel.log = transmitted waiting.kernel.log ++ [wire] ∧ ¬Forwards generation wire := by
  refine ⟨runs_reached begun,⟨rfl,rfl⟩,finishes,rfl,rfl,fun forwards => ?_⟩
  have kp := forwards.1.kp
  exact absurd kp (by decide)

end Mac80211.MncRx

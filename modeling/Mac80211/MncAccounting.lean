import Mac80211.MncRoundTrip
import Mac80211.MncSends

namespace Mac80211.MncTx

open List (mem_append append_nil mem_singleton)

-- A length that P does not divide takes one byte more.
structure Sends (par : TrParam) (skbs : List Skb) : Prop where
  src : par.src = true
  some_packets : par.sys = true ∨ par.dataN ≠ 0
  tail : codedCount par ≠ 0 →
    P * P * skbs.length + 3 + (skbs.getD 0 default).len % P ≤ (skbs.getD 0 default).tailroom

structure Sound (skb : Skb) : Prop where
  length : etherHeadLen ≤ skb.len
  room : 3 ≤ skb.data

def Accountable : Event → Sender → Prop
  | .packet skb _,s => Sound skb ∧ (∀ w ∈ s.skbsOriginal, w.len = skb.len) ∧
      (s.skbsOriginal.length + 1 = s.par.dataK.toNat → Sends s.par (s.skbsOriginal ++ [{skb with id := s.kernel.nextSkb}]))
  | .setParam _ _ dataK _ _ _ _,s => s.skbsOriginal.length < dataK.toNat
  | .expire,s => Sends s.par s.skbsOriginal

def Sent (call : Call) (log : List Fate) : Prop :=
  ∃ wires, wires ≠ [] ∧ wires.Sublist (transmitted log) ∧
    ∀ wire ∈ wires, (generationOf true call.skbs P call.eid).Packet (skbPull wire etherHeadLen)

theorem sent_longer (sent : Sent call log) (longer : transmitted other = transmitted log ++ more) : Sent call other := by
  obtain ⟨wires,some_sent,inside,packets⟩ := sent
  refine ⟨wires,some_sent,?_,packets⟩
  rw [longer]
  exact inside.trans (List.sublist_append_left _ _)

theorem mncEncodingTx_source (sends : Sends par skbs) (nonempty : skbs ≠ []) (count : skbs.length < 0x1000000)
    (same : ∀ s ∈ skbs, s.len = len) (sound : ∀ s ∈ skbs, Sound s) (dev : NetDevice) (eid : UInt8) (kernel : Kernel) :
    ∃ after wires, mncEncodingTx par skbs dev eid eid kernel = some (nextEid eid,after) ∧
      transmitted after.log = transmitted kernel.log ++ wires ∧ kernel.nextSkb ≤ after.nextSkb ∧ wires ≠ [] ∧
      ∀ wire ∈ wires, (generationOf true skbs P eid).Packet (skbPull wire etherHeadLen) := by
  have first : skbs.getD 0 default ∈ skbs := by
    cases skbs with
    | nil => exact absurd rfl nonempty
    | cons => exact List.mem_cons_self
  have lengths : ∀ s ∈ skbs, s.len = (skbs.getD 0 default).len := fun s member => (same s member).trans (same _ first).symm
  have encodable : Encodable true skbs := ⟨nonempty,count,lengths,fun s member => (sound s member).length⟩
  have coded_by : Encodable par.src skbs := by rw [sends.src]; exact encodable
  obtain ⟨wires,middle,encoded,next,some_sent,packets⟩ : ∃ wires middle,
      encodedPackets par skbs eid kernel = some (wires,middle) ∧ kernel.nextSkb ≤ middle.nextSkb ∧ wires ≠ [] ∧
      ∀ wire ∈ wires, (generationOf true skbs P eid).Packet (skbPull wire etherHeadLen) := by
    unfold encodedPackets
    cases sys : par.sys with
    | true =>
      have originals : ∀ wire ∈ skbs.mapIdx (fun i s => systematic skbs.length P eid i {s with id := kernel.nextSkb + i}),
          (generationOf true skbs P eid).Packet (skbPull wire etherHeadLen) := by
        intro wire member
        obtain ⟨i,inside,rfl⟩ := List.mem_mapIdx.mp member
        have here : skbs.getD i default = skbs[i] := by simp [List.getD_eq_getElem?_getD,inside]
        have packet := systematic_packet encodable P eid i inside
          (by rw [here]; exact (sound _ (List.getElem_mem inside)).room) (kernel.nextSkb + i)
        rw [here] at packet
        exact .inl ⟨i,packet⟩
      have some_originals : skbs.mapIdx (fun i s => systematic skbs.length P eid i {s with id := kernel.nextSkb + i}) ≠ [] := by
        rwa [ne_eq,List.mapIdx_eq_nil_iff]
      simp only [if_true,enqueueSkbOriginal_eq nonempty count (show P < 0x100 by decide) lengths,List.nil_append]
      split
      · obtain ⟨more,after,ran,_,next,coded⟩ := codedPackets_coded par coded_by eid (par.dataN.toNat - par.dataK.toNat)
          (skbs.mapIdx fun i s => systematic skbs.length P eid i {s with id := kernel.nextSkb + i})
          {kernel with nextSkb := kernel.nextSkb + skbs.length}
        rw [sends.src] at coded
        refine ⟨_,after,ran,by rw [next]; dsimp only; omega,?_,fun wire member => ?_⟩
        · exact fun none_sent => some_originals (List.append_eq_nil_iff.mp none_sent).1
        · rcases mem_append.mp member with original | new
          · exact originals wire original
          · exact .inr (coded wire new)
      · exact ⟨_,_,rfl,Nat.le_add_right _ _,some_originals,originals⟩
    | false =>
      have asked : par.dataN ≠ 0 := by
        rcases sends.some_packets with other | asked
        · rw [sys] at other
          cases other
        · exact asked
      obtain ⟨more,after,ran,length,next,coded⟩ := codedPackets_coded par coded_by eid par.dataN.toNat [] kernel
      rw [sends.src] at coded
      refine ⟨more,after,ran,by omega,?_,fun wire member => .inr (coded wire member)⟩
      intro none_sent
      rw [none_sent,List.length_nil] at length
      exact asked (UInt8.toNat_inj.mp length.symm)
  refine ⟨{middle with log := kernel.log ++ wires.map fun skb => .sent skb dev},wires,?_,?_,next,some_sent,packets⟩
  · rw [mncEncodingTx,encoded]
    simp only [sends.src,if_true,sends_log,encodedPackets_log encoded]
  · rw [transmitted_append,transmitted_sent]

-- Each call that sends a generation has the next eid.
structure Accounts (accepted : List Skb) (calls : List Call) (s : Sender) : Prop where
  short : s.skbsOriginal.length < s.par.dataK.toNat
  each : accepted = calls.flatMap (·.skbs) ++ s.skbsOriginal
  once : (accepted.map (·.id)).Nodup
  sent : ∀ call ∈ calls, Sent call s.kernel.log
  names : (calls.map (·.eid) ++ [s.eid]).IsChain fun a b => b = nextEid a

-- The timer only runs while packets wait.
structure Kept (accepted : List Skb) (s : Sender) : Prop where
  buffers : ∀ skb ∈ accepted, skb.id < s.kernel.nextSkb
  sound : ∀ w ∈ s.skbsOriginal, Sound w
  same : ∀ v ∈ s.skbsOriginal, ∀ w ∈ s.skbsOriginal, v.len = w.len
  pending : s.mncTxTimer = true → s.skbsOriginal ≠ [] ∧ ∃ dev, s.devPrev = some dev
  fresh : s.i = false → s.skbsOriginal = []

theorem sends_fits (sends : Sends par skbs) : putPanics par skbs = false := by
  unfold putPanics
  by_cases uncoded : codedCount par = 0
  · simp [uncoded]
  · have enough := sends.tail uncoded
    rw [decide_eq_false (by omega : ¬(skbs.getD 0 default).tailroom < P * P * skbs.length + 3),Bool.and_false]

theorem flush_sends (sends : Sends s.par s.skbsOriginal) (nonempty : s.skbsOriginal ≠ []) (few : s.skbsOriginal.length < 0x1000000)
    (sound : ∀ w ∈ s.skbsOriginal, Sound w) (same : ∀ v ∈ s.skbsOriginal, ∀ w ∈ s.skbsOriginal, v.len = w.len)
    (dev : NetDevice) :
    ∃ kernel wires, flush dev s = some {s with skbsOriginal := [],eid := nextEid s.eid,kernel := kernel} ∧
      transmitted kernel.log = transmitted s.kernel.log ++ wires ∧ s.kernel.nextSkb ≤ kernel.nextSkb ∧
      Sent ⟨s.eid,s.skbsOriginal⟩ kernel.log := by
  obtain ⟨first,member⟩ := List.exists_mem_of_ne_nil _ nonempty
  obtain ⟨after,wires,ran,log,next,some_sent,packets⟩ := mncEncodingTx_source sends nonempty few
    (fun w here => same w here first member) sound dev s.eid s.kernel
  have purged : transmitted (skbQueuePurge s.skbsOriginal after).log = transmitted s.kernel.log ++ wires := by
    rw [transmitted_purge,log]
  refine ⟨skbQueuePurge s.skbsOriginal after,wires,by rw [flush,sends_fits sends,ran]; rfl,purged,?_,wires,some_sent,?_,packets⟩
  · rw [skbQueuePurge_log]
    exact next
  · rw [purged]
    exact List.sublist_append_right _ _

theorem names_next (names : (calls.map (·.eid) ++ [eid]).IsChain fun a b => b = nextEid a)
    (skbs : List Skb) :
    ((calls ++ [Call.mk eid skbs]).map (·.eid) ++ [nextEid eid]).IsChain fun a b => b = nextEid a := by
  rw [List.map_append,List.map_singleton,List.isChain_append]
  refine ⟨names,List.isChain_singleton _,?_⟩
  intro x last y first
  rw [List.getLast?_concat,Option.mem_some_iff] at last
  rw [List.head?_cons,Option.mem_some_iff] at first
  rw [← last,← first]

theorem flush_accounts (accepted : List Skb) (each : accepted = calls.flatMap (·.skbs) ++ s.skbsOriginal)
    (once : (accepted.map (·.id)).Nodup) (sent : ∀ call ∈ calls, Sent call s.kernel.log)
    (names : (calls.map (·.eid) ++ [s.eid]).IsChain fun a b => b = nextEid a)
    (buffers : ∀ skb ∈ accepted, skb.id < s.kernel.nextSkb) (sends : Sends s.par s.skbsOriginal) (positive : 0 < s.par.dataK.toNat)
    (nonempty : s.skbsOriginal ≠ []) (few : s.skbsOriginal.length ≤ s.par.dataK.toNat)
    (sound : ∀ w ∈ s.skbsOriginal, Sound w) (same : ∀ v ∈ s.skbsOriginal, ∀ w ∈ s.skbsOriginal, v.len = w.len)
    (quiet : s.mncTxTimer = false) (dev : NetDevice) :
    ∃ t, flush dev s = some t ∧ Accounts accepted (calls ++ [Call.mk s.eid s.skbsOriginal]) t ∧ Kept accepted t := by
  have bound := s.par.dataK.toNat_lt
  obtain ⟨_,_,ran,log,next,here⟩ := flush_sends sends nonempty (by omega) sound same dev
  refine ⟨_,ran,⟨positive,?_,once,?_,names_next names _⟩,?_⟩
  · rw [List.flatMap_append,List.flatMap_singleton,append_nil]
    exact each
  · intro call member
    rcases mem_append.mp member with old | new
    · exact sent_longer (sent call old) log
    · rw [mem_singleton.mp new]
      exact here
  · refine ⟨fun skb member => Nat.lt_of_lt_of_le (buffers skb member) next,fun w none_left => (nomatch none_left),
      fun v none_left => (nomatch none_left),fun running => ?_,fun _ => rfl⟩
    rw [quiet] at running
    cases running

def Sender.enqueue (s : Sender) (skb : Skb) (dev : NetDevice) (timer : Bool) : Sender :=
  {s with devPrev := some dev,skbsOriginal := s.skbsOriginal ++ [skb],i := true,mncTxTimer := timer}

theorem packet_queued (startCheck : Bool) (port : portnum skb = 5555) (fresh : s.i = false → s.skbsOriginal = []) :
    ieee80211MatrixNetworkCoding startCheck skb dev s =
      if s.skbsOriginal.length + 1 = s.par.dataK.toNat then flush dev (s.enqueue skb dev false)
      else some (s.enqueue skb dev true) := by
  have length : (s.skbsOriginal ++ [skb]).length = s.skbsOriginal.length + 1 := by simp
  unfold ieee80211MatrixNetworkCoding
  rw [if_neg (by omega),if_neg (by omega),← length]
  cases started : s.i with
  | true =>
    simp only [if_true,Sender.enqueue]
    rw [started]
  | false =>
    simp only [Bool.false_eq_true,if_false,Sender.enqueue,fresh started]

theorem step_accounts (accounts : Accounts accepted calls s) (kept : Kept accepted s) (occurs : e.Occurs s)
    (ok : Accountable e s) :
    ∃ t, step e s = some t ∧ Accounts (accepted ++ e.accepts s) (calls ++ e.calls s) t ∧ Kept (accepted ++ e.accepts s) t := by
  have short := accounts.short
  cases e with
  | setParam =>
    refine ⟨_,rfl,?_,?_⟩
    · simp only [Event.accepts,Event.calls,append_nil]
      exact ⟨ok,accounts.each,accounts.once,accounts.sent,accounts.names⟩
    · simp only [Event.accepts,append_nil]
      exact {kept with}
  | expire =>
    obtain ⟨nonempty,dev,here⟩ := kept.pending occurs
    have handled : step .expire s = flush dev {s with mncTxTimer := false} := by
      simp only [step,mncTxTimerFunc,here]
    rw [handled]
    simp only [Event.accepts,Event.calls,append_nil]
    exact flush_accounts (s := {s with mncTxTimer := false}) accepted accounts.each accounts.once accounts.sent
      accounts.names kept.buffers ok (Nat.lt_of_le_of_lt (Nat.zero_le _) short) nonempty (Nat.le_of_lt short)
      kept.sound kept.same rfl dev
  | packet skb dev =>
    obtain ⟨good,equal,sends⟩ := ok
    have port : portnum skb = 5555 := occurs
    let new : Skb := {skb with id := s.kernel.nextSkb}
    let u : Sender := {s with kernel := {s.kernel with nextSkb := s.kernel.nextSkb + 1}}
    have each : accepted ++ [new] = calls.flatMap (·.skbs) ++ (s.skbsOriginal ++ [new]) := by
      rw [accounts.each,List.append_assoc]
    have once : ((accepted ++ [new]).map (·.id)).Nodup := by
      rw [List.map_append,List.nodup_append]
      refine ⟨accounts.once,List.nodup_singleton _,?_⟩
      intro a member b last _
      obtain ⟨old,here,rfl⟩ := List.mem_map.mp member
      have bound := kept.buffers old here
      have newest : b = s.kernel.nextSkb := by simpa [new] using last
      omega
    have buffers : ∀ w ∈ accepted ++ [new], w.id < u.kernel.nextSkb := by
      intro w member
      rcases mem_append.mp member with old | last
      · exact Nat.lt_succ_of_lt (kept.buffers w old)
      · rw [mem_singleton.mp last]
        exact Nat.lt_succ_self _
    have sound : ∀ w ∈ s.skbsOriginal ++ [new], Sound w := by
      intro w member
      rcases mem_append.mp member with old | last
      · exact kept.sound w old
      · rw [mem_singleton.mp last]
        exact ⟨good.length,good.room⟩
    have lengths : ∀ w ∈ s.skbsOriginal ++ [new], w.len = skb.len := by
      intro w member
      rcases mem_append.mp member with old | last
      · exact equal w old
      · rw [mem_singleton.mp last]
    have same : ∀ v ∈ s.skbsOriginal ++ [new], ∀ w ∈ s.skbsOriginal ++ [new], v.len = w.len :=
      fun v left w right => (lengths v left).trans (lengths w right).symm
    have nonempty : s.skbsOriginal ++ [new] ≠ [] := by simp
    have longer : (s.skbsOriginal ++ [new]).length = s.skbsOriginal.length + 1 := by simp
    have ran : step (.packet skb dev) s = if s.skbsOriginal.length + 1 = s.par.dataK.toNat then flush dev (u.enqueue new dev false)
        else some (u.enqueue new dev true) := packet_queued (s := u) false port kept.fresh
    rw [ran]
    simp only [Event.accepts,Event.calls]
    by_cases full : s.skbsOriginal.length + 1 = s.par.dataK.toNat
    · rw [if_pos full,if_pos full]
      exact flush_accounts (s := u.enqueue new dev false) _ each once accounts.sent accounts.names
        buffers (sends full) (Nat.lt_of_le_of_lt (Nat.zero_le _) short) nonempty (Nat.le_of_eq (longer.trans full))
        sound same rfl dev
    · rw [if_neg full,if_neg full,append_nil]
      refine ⟨_,rfl,⟨?_,each,once,accounts.sent,accounts.names⟩,buffers,sound,same,fun _ => ⟨nonempty,dev,rfl⟩,
        fun started => (nomatch started)⟩
      have few : (s.skbsOriginal ++ [new]).length < s.par.dataK.toNat := by omega
      exact few

theorem generations_accounted (run : Runs random Accountable accepted calls s) :
    Accounts accepted calls s ∧ ∀ e : Event, e.Occurs s → Accountable e s → ∃ t, step e s = some t := by
  have both : Accounts accepted calls s ∧ Kept accepted s := by
    induction run with
    | start =>
        refine ⟨⟨show 0 < (10 : UInt8).toNat by decide,rfl,List.nodup_nil,fun call none_yet => (nomatch none_yet),List.isChain_singleton _⟩,
          fun skb none_yet => (nomatch none_yet),fun w none_yet => (nomatch none_yet),fun v none_yet => (nomatch none_yet),
          fun running => (nomatch running),fun _ => rfl⟩
    | step prior occurs ok ran ih =>
        obtain ⟨t,same,accounts,kept⟩ := step_accounts ih.1 ih.2 occurs ok
        rw [ran] at same
        cases same
        exact ⟨accounts,kept⟩
  refine ⟨both.1,fun e occurs ok => ?_⟩
  obtain ⟨t,ran,_⟩ := step_accounts both.1 both.2 occurs ok
  exact ⟨t,ran⟩

-- Two packets of one byte, sent as the originals of one generation.
namespace AccountingSample

def packet (content : UInt8) : Event :=
  .packet {(default : Skb) with
    mem := fun a => if a = 24 then 0x15 else if a = 25 then 0xb3 else if a = 30 then content else 0
    data := 16
    len := 15
    transportHeader := 22
    tailroom := 12} ⟨Vector.replicate 6 0⟩

def configure (dataK : UInt8) : Event := .setParam true true dataK 3 0 0 0

def start : Sender := Sender.initial fun _ => 0
def configured : Sender := (step (configure 2) start).getD start
def waiting : Sender := (step (packet 5) configured).getD start
def sent : Sender := (step (packet 9) waiting).getD start

theorem sound (content : UInt8) : ∀ skb dev, packet content = .packet skb dev → Sound skb := by
  intro _ _ same
  cases same
  exact ⟨show 14 ≤ 15 by decide,show 3 ≤ 16 by decide⟩

def accepted : List Skb :=
  [] ++ (configure 2).accepts start ++ (packet 5).accepts configured ++ (packet 9).accepts waiting

def calls : List Call := [] ++ (configure 2).calls start ++ (packet 5).calls configured ++ (packet 9).calls waiting

theorem run : Runs (fun _ => 0) Accountable accepted calls sent := by
  refine .step (.step (.step .start trivial ?_ rfl) rfl ?_ rfl) rfl ?_ rfl
  · have short : 0 < (2 : UInt8).toNat := by decide
    exact short
  · refine ⟨sound 5 _ _ rfl,fun w none_yet => (nomatch none_yet),fun full => ?_⟩
    exact absurd full (by decide)
  · refine ⟨sound 9 _ _ rfl,fun w member => ?_,fun _ => ⟨rfl,.inl rfl,fun _ => ?_⟩⟩
    · rw [mem_singleton.mp member]
    · exact show 2 * 2 * 2 + 3 + 15 % 2 ≤ 12 by decide

end AccountingSample

open AccountingSample in
theorem generations_accounted_sample :
    Accounts accepted calls sent ∧ ∀ e : Event, e.Occurs sent → Accountable e sent → ∃ t, step e sent = some t :=
  generations_accounted run

open AccountingSample in
theorem accounts_overrun : ∃ accepted calls s, Runs (fun _ => 0) (fun _ _ => True) accepted calls s ∧
    ¬s.skbsOriginal.length < s.par.dataK.toNat := by
  refine ⟨_,_,_,.step (.step (.step .start (e := configure 2) trivial trivial rfl) (e := packet 5) rfl trivial rfl)
    (e := configure 1) trivial trivial rfl,?_⟩
  have overrun : ¬1 < (1 : UInt8).toNat := by decide
  exact overrun

end Mac80211.MncTx

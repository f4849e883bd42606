import Mac80211.MncDelivery
import Mac80211.MncRoundTrip

namespace Mac80211.MncRx

open List (subset_append_left mem_singleton mem_range mem_append mem_map)

structure Arrival.Framed (e : Arrival) : Prop where
  header : e.skb.macHeader + 14 = e.skb.data
  length : 3 ≤ e.skb.len

def HandedCopy (log : List Fate) (s : Skb) : Prop :=
  ∃ r, .received r (some (s.byte 1,mindex s)) ∈ log ∧ r.len + 3 = s.len ∧ ∀ o < r.len, r.byte o = s.byte (3 + o)

def Handed (G : Generation) (i : Nat) (log : List Fate) : Prop :=
  ∃ r, .received r (some (G.eid,i)) ∈ log ∧ r.len = G.len ∧ ∀ o < G.whole, r.byte o = G.originals i o

theorem skbDecodingSys_content (header : skb.macHeader + 14 = skb.data) (length : 3 ≤ skb.len) :
    (skbDecodingSys skb).len + 3 = skb.len ∧ ∀ o, (skbDecodingSys skb).byte o = skb.byte (3 + o) := by
  unfold skbDecodingSys
  rw [skbPull,if_neg (by dsimp only; omega)]
  refine ⟨by dsimp only; omega,fun o => ?_⟩
  simp only [Skb.byte]
  rw [← Nat.add_assoc]
  refine Loops.forRange_keeps (fun mem : Nat → UInt8 => mem (skb.data + 3 + o) = skb.mem (skb.data + 3 + o)) rfl ?_
  intro i _ _ _ kept
  rw [Function.update_of_ne (by omega),kept]

-- A packet with an index was handed up when it came; only the rest waits for the decoding.
structure Copied (log : List Fate) (q : MncQueue) : Prop where
  copies : ∀ s ∈ q.skbs, mindex s ≠ 0x3f → HandedCopy log s
  sys : q.sys = true → ∀ s ∈ q.skbs, mindex s ≠ 0x3f

theorem copied_log (copied : Copied log q) (longer : log ⊆ other) : Copied other q := by
  refine ⟨fun s member systematic => ?_,copied.sys⟩
  obtain ⟨r,recorded,facts⟩ := copied.copies s member systematic
  exact ⟨r,longer recorded,facts⟩

theorem purge_longer (skbs : List Skb) (kernel : Kernel) : kernel.log ⊆ (skbQueuePurge skbs kernel).log := by
  rw [skbQueuePurge_log]
  exact subset_append_left _ _

theorem expire_longer (a : Queues) (now : UInt64) : a.kernel.log ⊆ (a.expire now).kernel.log :=
  purge_longer _ _

theorem free_longer (skb : Skb) (kernel : Kernel) : kernel.log ⊆ (kfreeSkb (some skb) kernel).log :=
  subset_append_left _ _

theorem outcome_longer (outcome : Outcome k p pkts kernel d) : kernel.log ⊆ d.kernel.log := by
  cases outcome with
  | duplicate | dependent | solved => exact subset_append_left _ _

theorem relay_longer (ran : relay par newskbs rdev eid kernel = some after) : kernel.log ⊆ after.log := by
  obtain ⟨_,log⟩ := relay_log ran
  rw [log]
  exact subset_append_left _ _

theorem deliver_longer (eid : UInt8) (newskbs : List (Nat × Skb)) (kernel : Kernel) :
    kernel.log ⊆ (deliver eid newskbs kernel).log := by
  rw [deliver_log]
  exact subset_append_left _ _

theorem queuePacket_copied (copied : Copied kernel.log q) (header : skb.macHeader + 14 = skb.data) (length : 3 ≤ skb.len)
    (queued : queuePacket skb q kernel = (filled,after)) :
    Copied after.log filled ∧ kernel.log ⊆ after.log := by
  unfold queuePacket at queued
  split at queued
  · rename_i systematic
    obtain ⟨rfl,rfl⟩ := Prod.mk.inj queued
    have longer : kernel.log ⊆ (netifReceiveSkb (skbDecodingSys skb) (some (skb.byte 1,mindex skb))
      (skbCopy skb kernel).2).log := subset_append_left _ _
    have old := copied_log copied longer
    refine ⟨⟨?_,?_⟩,longer⟩
    · intro s member mark
      rcases mem_append.mp member with before | new
      · exact old.copies s before mark
      · rw [mem_singleton.mp new]
        obtain ⟨shorter,content⟩ := skbDecodingSys_content header length
        exact ⟨skbDecodingSys skb,List.mem_append_right _ (mem_singleton.mpr rfl),shorter,fun o _ => content o⟩
    · intro sys s member
      rcases mem_append.mp member with before | new
      · exact copied.sys sys s before
      · rw [mem_singleton.mp new]
        exact systematic
  · rename_i coded
    obtain ⟨rfl,rfl⟩ := Prod.mk.inj queued
    refine ⟨⟨?_,fun sys => (nomatch sys)⟩,fun _ here => here⟩
    intro s member mark
    rcases mem_append.mp member with before | new
    · exact copied.copies s before mark
    · rw [mem_singleton.mp new] at mark
      exact absurd mark coded

def AllCopied (a : Queues) : Prop := ∀ q ∈ a.queues, Copied a.kernel.log q

theorem accepts_copied (all : AllCopied a) (header : skb.macHeader + 14 = skb.data) (length : 3 ≤ skb.len)
    (accepts : Accepts now skb a before q after filled kernel) :
    Copied kernel.log filled ∧ a.kernel.log ⊆ kernel.log ∧ ∀ r ∈ before ++ after, Copied kernel.log r := by
  have copied : Copied (a.expire now).kernel.log q := by
    rcases opens_old accepts.opens with here | ⟨rfl,_⟩
    · exact copied_log (all q here) (expire_longer a now)
    · exact ⟨fun s none_yet => (nomatch none_yet),fun _ s none_yet => (nomatch none_yet)⟩
  obtain ⟨final,longer⟩ := queuePacket_copied copied header length accepts.queued
  have whole : a.kernel.log ⊆ kernel.log := fun _ here => longer (expire_longer a now here)
  exact ⟨final,whole,fun r member => copied_log (all r (opens_others accepts.opens member)) whole⟩

theorem takes_copied (all : AllCopied a) (valid : ValidQueues a.queues) (fits : Fits skb)
    (header : skb.macHeader + 14 = skb.data) (length : 3 ≤ skb.len) (takes : Takes par now skb a b) : AllCopied b := by
  cases takes with
  | closed =>
    intro q member
    exact copied_log (all q (List.mem_filter.mp member).1) fun _ here => free_longer _ _ (expire_longer a now here)
  | wrongKp _ opens other =>
    intro r member
    exact copied_log (all r (opens_wrong opens other member)) fun _ here => free_longer _ _ (expire_longer a now here)
  | waiting accepts =>
    obtain ⟨copied,_,others⟩ := accepts_copied all header length accepts
    intro r member
    rcases mem_middle member with rfl | inside
    · exact copied
    · exact others r inside
  | systematic accepts =>
    obtain ⟨copied,_,others⟩ := accepts_copied all header length accepts
    exact fun r inside => copied_log (others r inside) (purge_longer _ _)
  | @failed before q after filled kernel d accepts full sys ran bad =>
    obtain ⟨copied,_,others⟩ := accepts_copied all header length accepts
    have outcome := accepts_outcome accepts fits valid full ran
    have longer := outcome_longer outcome
    obtain ⟨kept,_⟩ := failed_keeps accepts fits valid full ran bad
    intro r member
    rcases mem_middle member with rfl | inside
    · have old := copied_log copied longer
      exact ⟨fun s here => old.copies s (kept.subset here),fun mark s here => old.sys mark s (kept.subset here)⟩
    · exact copied_log (others r inside) longer
  | @decoded before q after filled kernel d relayed accepts full sys ran ok sent =>
    obtain ⟨_,_,others⟩ := accepts_copied all header length accepts
    have outcome := accepts_outcome accepts fits valid full ran
    exact fun r inside => copied_log (others r inside) fun _ here =>
      purge_longer _ _ (deliver_longer _ _ _ (relay_longer sent (outcome_longer outcome here)))

structure Sized (G : Generation) : Prop where
  some_packets : 1 ≤ G.k
  count : G.k ≤ 0x3f
  positive : 1 ≤ G.p
  block : G.p ≤ 3

theorem sized_kp (sized : Sized G) : kOf G.kp = G.k ∧ pOf G.kp = G.p := by
  have count := sized.count
  have block := sized.block
  exact Generation.kpByte_parts G.k (by omega) G.p (by omega)

section
variable {G : Generation} (packet : G.Packet skb)
include packet

theorem packet_header : skb.byte 0 = G.kp ∧ skb.byte 1 = G.eid := by
  rcases packet with ⟨i,systematic⟩ | coded
  · exact ⟨systematic.kp,systematic.eid⟩
  · exact ⟨coded.kp,coded.eid⟩

theorem packet_renamed (buffer : Nat) : G.Packet {skb with id := buffer} := by
  rcases packet with ⟨i,systematic⟩ | coded
  · exact .inl ⟨i,Generation.systematic_transfer systematic rfl fun _ _ => rfl⟩
  · exact .inr (Generation.coded_transfer coded rfl fun _ _ => rfl)

theorem packet_fits (sized : Sized G) : Fits skb := by
  obtain ⟨k_eq,p_eq⟩ := sized_kp sized
  obtain ⟨kp,_⟩ := packet_header packet
  have positive := sized.positive
  refine ⟨by rw [kp,p_eq]; exact positive,?_⟩
  rcases packet with ⟨i,systematic⟩ | coded
  · obtain ⟨same,_⟩ := Generation.systematic_mindex systematic sized.count
    exact .inl (by rw [same,kp,k_eq]; exact systematic.index)
  · exact .inr (Generation.coded_mindex coded)

end

structure Complete (G : Generation) (now : UInt64) (skb : Skb) (a : Queues) : Prop where
  together : Taken now skb a → ∀ p ∈ (met now skb a).skbs, G.Packet p
  distinct : Taken now skb a → (met now skb a).sys = true → mindex skb ≠ 0x3f →
    (met now skb a).skbs.length + 1 = G.k → Distinct ((met now skb a).skbs ++ [skb])

theorem handed_systematic (packet : G.Packet s) (sized : Sized G) (systematic : mindex s ≠ 0x3f)
    (copy : HandedCopy log s) : Handed G (mindex s) log := by
  obtain ⟨r,recorded,length,content⟩ := copy
  have shape := Generation.packet_systematic packet sized.count systematic
  have long := shape.length
  rw [shape.eid] at recorded
  refine ⟨r,recorded,by omega,fun o inside => ?_⟩
  have short : o < G.len := Nat.lt_of_lt_of_le inside (Nat.mul_div_le _ _)
  rw [content o (by omega),shape.payload o short]

theorem handed_longer (known : Handed G i log) (longer : log ⊆ other) : Handed G i other := by
  obtain ⟨r,recorded,facts⟩ := known
  exact ⟨r,longer recorded,facts⟩

theorem indices_all (count : pkts.length = k) (distinct : Distinct pkts) (systematic : ∀ s ∈ pkts, mindex s ≠ 0x3f)
    (index : ∀ s ∈ pkts, mindex s < k) (small : i < k) : ∃ s ∈ pkts, mindex s = i := by
  have all : (pkts.filter fun s => !isCoded s) = pkts :=
    List.filter_eq_self.mpr fun s member => by simp [isCoded,systematic s member]
  unfold Distinct at distinct
  rw [all] at distinct
  have inside : pkts.map mindex ⊆ List.range k := by
    intro m member
    obtain ⟨s,here,rfl⟩ := mem_map.mp member
    exact mem_range.mpr (index s here)
  have order := (List.subperm_of_subset distinct inside).perm_of_length_le (by simp [count])
  obtain ⟨s,here,same⟩ := mem_map.mp (order.mem_iff.mpr (mem_range.mpr small))
  exact ⟨s,here,same⟩

theorem accepts_packets (accepts : Accepts now skb a before q after filled kernel) (packet : G.Packet skb)
    (complete : Complete G now skb a) : ∀ s ∈ filled.skbs, G.Packet s := by
  obtain ⟨same,taken⟩ := accepts_met accepts
  obtain ⟨buffer,_,rfl⟩ := queuePacket_adds accepts.queued
  intro s member
  rcases mem_append.mp member with _ | new
  · exact complete.together taken s (by rwa [← same])
  · rw [mem_singleton.mp new]
    exact packet_renamed packet buffer

theorem solved_handed (sized : Sized G) (belongs : ∀ s ∈ pkts, G.Packet s)
    (copies : ∀ s ∈ pkts, mindex s ≠ 0x3f → HandedCopy log s)
    (solved : Solved G.k G.p pkts kernel isSys skb newskb len) (longer : log ⊆ relayed.log) (small : i < G.k) :
    Handed G i (deliver G.eid (((List.range G.k).filter fun i => !isSys i).map fun i =>
      (i,skbTrim (newskb i) len)) relayed).log := by
  obtain ⟨length,content⟩ := Generation.solved_content solved belongs sized.some_packets sized.count sized.positive
  obtain ⟨long,bytes_eq⟩ := content i small
  have index := solved.index i small
  cases mark : isSys i with
  | true =>
    rw [mark,if_pos rfl] at index
    have count := sized.count
    have systematic : mindex (skb i) ≠ 0x3f := by omega
    have member : skb i ∈ pkts := solved.packets.mem_iff.mp (List.mem_map_of_mem (mem_range.mpr small))
    have known := handed_systematic (belongs _ member) sized systematic (copies _ member systematic)
    rw [index] at known
    exact handed_longer known fun _ here => deliver_longer _ _ _ (longer here)
  | false =>
    refine ⟨skbTrim (newskb i) len,?_,?_,?_⟩
    · rw [deliver_log]
      refine List.mem_append_right _ (mem_map.mpr ⟨(i,skbTrim (newskb i) len),List.mem_map_of_mem ?_,rfl⟩)
      exact List.mem_filter.mpr ⟨mem_range.mpr small,by simp [mark]⟩
    · rw [skbTrim_len _ (by rw [long mark,length]; omega),length]
    · intro o inside
      rw [skbTrim_byte]
      exact bytes_eq o inside

theorem takes_closed (all : AllCopied a) (valid : ValidQueues a.queues) (fits : Fits skb)
    (header : skb.macHeader + 14 = skb.data) (length : 3 ≤ skb.len) (sized : Sized G) (packet : G.Packet skb)
    (complete : Complete G now skb a) (takes : Takes par now skb a b) (closes : b.lastDid ≠ a.lastDid) :
    ∀ i < G.k, Handed G i b.kernel.log := by
  obtain ⟨kp,eid⟩ := packet_header packet
  obtain ⟨k_eq,p_eq⟩ := sized_kp sized
  cases takes with
  | closed | wrongKp | waiting | failed => exact absurd rfl closes
  | @systematic before q after filled kernel accepts full sys =>
    obtain ⟨copied,_⟩ := accepts_copied all header length accepts
    have belongs := accepts_packets accepts packet complete
    obtain ⟨same,taken⟩ := accepts_met accepts
    obtain ⟨q_sys,systematic⟩ := queuePacket_sys accepts.queued sys
    have count : filled.skbs.length = G.k := by rw [full,kp]; exact k_eq
    have distinct : Distinct filled.skbs := by
      obtain ⟨buffer,_,rfl⟩ := queuePacket_adds accepts.queued
      rw [same] at q_sys count ⊢
      exact (distinct_renamed _ skb buffer).mpr (complete.distinct taken q_sys systematic (by simpa using count))
    intro i small
    obtain ⟨s,member,rfl⟩ := indices_all count distinct (copied.sys sys) (fun s member => by
      exact (Generation.packet_systematic (belongs s member) sized.count (copied.sys sys s member)).index) small
    exact handed_longer (handed_systematic (belongs s member) sized (copied.sys sys s member)
      (copied.copies s member (copied.sys sys s member))) (purge_longer _ _)
  | @decoded before q after filled kernel d relayed accepts full sys ran ok sent =>
    obtain ⟨copied,_⟩ := accepts_copied all header length accepts
    have belongs := accepts_packets accepts packet complete
    have outcome := accepts_outcome accepts fits valid full ran
    have longer : kernel.log ⊆ relayed.log := fun _ here => relay_longer sent (outcome_longer outcome here)
    rw [kp,k_eq,p_eq] at outcome
    intro i small
    cases outcome with
    | duplicate => cases ok
    | dependent => cases ok
    | solved _ _ solved =>
      rw [eid]
      exact handed_longer (solved_handed sized belongs copied.copies solved longer small) (purge_longer _ _)

theorem receives_copied (all : AllCopied a) (valid : ValidQueues a.queues) (fits : e.Fits)
    (framed : ethertype e.skb = 0x0810 → e.Framed) (receives : Receives e a b) : AllCopied b := by
  cases receives with
  | other | control => exact fun q member => copied_log (all q member) (subset_append_left _ _)
  | mnc skb buffer kind takes =>
    subst buffer
    exact takes_copied (a := {a with kernel := {a.kernel with nextSkb := a.kernel.nextSkb + 1}}) all valid
      (fits.renamed kind) (framed kind).header (framed kind).length takes

theorem closed_complete {G : Generation} (run : Runs random (fun e _ => e.Framed) s) (kind : ethertype e.skb = 0x0810) (framed : e.Framed)
    (sized : Sized G) (packet : G.Packet e.packet) (complete : Complete G e.jiffies e.packet s.view)
    (ran : receive e s = some t) (closes : t.lastDid ≠ s.lastDid) : ∀ i < G.k, Handed G i t.kernel.log := by
  obtain ⟨a,represents,valid,all⟩ := runs_keep AllCopied (fun _ none_yet => (nomatch none_yet))
    (fun e s a b _ valid all fits framed receives => receives_copied all valid fits framed receives) run
  rw [represents_view represents] at complete
  obtain ⟨b,receives,after⟩ := receive_receives represents ran
  rw [after.lastDid,represents.lastDid] at closes
  rw [after.kernel]
  cases receives with
  | other skb buffer other => subst buffer; exact absurd kind other.1
  | control skb buffer control =>
      subst buffer
      have control : ethertype e.skb = 0x0811 := control
      rw [kind] at control
      exact absurd control (by decide)
  | mnc skb buffer _ takes =>
      subst buffer
      have renamed := packet_renamed packet a.kernel.nextSkb
      refine takes_closed (a := {a with kernel := {a.kernel with nextSkb := a.kernel.nextSkb + 1}}) all valid
        (packet_fits renamed sized) framed.header framed.length sized renamed ⟨complete.together,?_⟩ takes closes
      intro taken sys systematic count
      exact (distinct_renamed _ e.packet a.kernel.nextSkb).mpr (complete.distinct taken sys systematic count)

namespace CompletionSample

def generation : Generation := ⟨2,1,1,7,fun i _ => if i = 0 then 5 else 9⟩
def first : Arrival := sampleFrame [0x09,7,0,5]
def second : Arrival := sampleFrame [0x09,7,4,9]

theorem first_packet : generation.Systematic 0 first.packet :=
  ⟨by decide,by decide,by decide,by decide,by decide,fun o inside => by
    have zero : o = 0 := Nat.lt_one_iff.mp inside
    subst zero
    rfl⟩

theorem second_packet : generation.Systematic 1 second.packet :=
  ⟨by decide,by decide,by decide,by decide,by decide,fun o inside => by
    have zero : o = 0 := Nat.lt_one_iff.mp inside
    subst zero
    rfl⟩

theorem first_fits : first.Fits := fun _ => ⟨by decide,by decide⟩

theorem framed (content : List UInt8) (long : 3 ≤ content.length) : (sampleFrame content).Framed := ⟨rfl,long⟩

theorem sized : Sized generation := ⟨by decide,by decide,by decide,by decide⟩

def waiting : State := (receive first sampleStart).getD sampleStart
def whole : State := (receive second waiting).getD sampleStart
def twice : State := (receive first waiting).getD sampleStart

theorem begun : Runs (fun _ => 0) (fun e _ => e.Framed) waiting := .step .start first_fits (fun _ => framed _ (by decide)) rfl

theorem waiting_packets : ∀ p ∈ (met 0 second.packet waiting.view).skbs, generation.Systematic 0 p := by
  intro p member
  have only : (met 0 second.packet waiting.view).skbs = [{first.packet with id := 1}] := rfl
  rw [only,mem_singleton] at member
  subst member
  exact Generation.systematic_transfer first_packet rfl fun _ _ => rfl

theorem second_complete : Complete generation 0 second.packet waiting.view :=
  ⟨fun _ p member => .inl ⟨0,waiting_packets p member⟩,fun _ _ _ _ => by
    have only : (met 0 second.packet waiting.view).skbs = [{first.packet with id := 1}] := rfl
    rw [only]
    decide⟩

theorem differ {w : Vector UInt8 3} (other : v.toList ≠ w.toList) : v ≠ w := fun same => other (congrArg _ same)

end CompletionSample

open CompletionSample in
theorem closed_complete_sample : receive second waiting = some whole ∧ whole.lastDid ≠ waiting.lastDid ∧
    ∀ i < generation.k, Handed generation i whole.kernel.log := by
  have closes : whole.lastDid ≠ waiting.lastDid := differ (by decide)
  exact ⟨rfl,closes,closed_complete begun rfl (framed _ (by decide)) sized (.inl ⟨1,second_packet⟩) second_complete
    rfl closes⟩

open CompletionSample in
theorem closed_incomplete : Reached (fun _ => 0) waiting ∧ first.Fits ∧ receive first waiting = some twice ∧
    generation.Packet first.packet ∧ (∀ p ∈ (met 0 first.packet waiting.view).skbs, generation.Packet p) ∧
    twice.lastDid ≠ waiting.lastDid ∧ ¬∀ i < generation.k, Handed generation i twice.kernel.log := by
  refine ⟨runs_reached begun,first_fits,rfl,.inl ⟨0,first_packet⟩,fun p member => .inl ⟨0,waiting_packets p member⟩,
    differ (by decide),fun all => ?_⟩
  obtain ⟨r,recorded,_⟩ := all 1 (by decide)
  have labels : (generation.eid,1) ∈ handed twice.kernel.log := List.mem_filterMap.mpr ⟨_,recorded,rfl⟩
  exact absurd labels (by decide)

end Mac80211.MncRx

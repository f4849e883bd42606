import Mac80211.MncOutcome
import Mac80211.MncQueues

namespace Mac80211.MncRx
open LinkedList

abbrev kOf (kp : UInt8) : Nat := (kp >>> 2).toNat
abbrev pOf (kp : UInt8) : Nat := (kp &&& 0x3).toNat

structure Fits (skb : Skb) : Prop where
  positive : 1 ≤ pOf (skb.byte 0)
  index : mindex skb < kOf (skb.byte 0) ∨ mindex skb = 0x3f

def Arrival.Fits (e : Arrival) : Prop := ethertype e.skb = 0x0810 → MncRx.Fits (stripEthertype e.skb)

theorem Arrival.Fits.renamed {e : Arrival} (fits : e.Fits) (kind : ethertype e.skb = 0x0810) : MncRx.Fits (stripEthertype {e.skb with id := n}) :=
  ⟨(fits kind).positive,(fits kind).index⟩

inductive Reached (random : Nat → UInt8) : State → Prop where
  | start : Reached random (initial random)
  | step (prior : Reached random s) (fits : e.Fits) (ran : receive e s = some t) : Reached random t

-- A run whose MNC packets all meet a condition on the state they arrive in.
inductive Runs (random : Nat → UInt8) (met : Arrival → State → Prop) : State → Prop where
  | start : Runs random met (initial random)
  | step (prior : Runs random met s) (fits : e.Fits) (ok : ethertype e.skb = 0x0810 → met e s)
      (ran : receive e s = some t) : Runs random met t

theorem runs_reached (run : Runs random met s) : Reached random s := by
  induction run with
  | start => exact .start
  | step prior fits ok ran ih => exact .step ih fits ran

structure MncQueue.Valid (q : MncQueue) : Prop where
  packets : ∀ s ∈ q.skbs, s.byte 0 = q.kp ∧ s.byte 1 = q.eid ∧ Fits s
  short : 1 ≤ kOf q.kp → q.skbs.length < kOf q.kp

structure ValidQueues (queues : List MncQueue) : Prop where
  distinct : (queues.map (·.eid)).Nodup
  each : ∀ q ∈ queues, q.Valid

theorem valid_sublist (valid : ValidQueues queues) (shorter : List.Sublist some_queues queues) : ValidQueues some_queues :=
  ⟨valid.distinct.sublist (shorter.map _),fun q member => valid.each q (shorter.subset member)⟩

theorem valid_replace (valid : ValidQueues (before ++ q :: after)) (same : r.eid = q.eid) (good : r.Valid) :
    ValidQueues (before ++ r :: after) := by
  have names : (before ++ r :: after).map (·.eid) = (before ++ q :: after).map (·.eid) := by simp [same]
  refine ⟨names ▸ valid.distinct,?_⟩
  intro p member
  rcases List.mem_append.mp member with early | late
  · exact valid.each p (List.mem_append_left _ early)
  · rcases List.mem_cons.mp late with here | later
    · exact here ▸ good
    · exact valid.each p (List.mem_append_right _ (List.mem_cons_of_mem _ later))

theorem opens_valid (valid : ValidQueues queues) (opens : Opens now eid kp queues before q after) :
    ValidQueues (before ++ q :: after) ∧ q.eid = eid := by
  cases opens with
  | found others same => exact ⟨valid,same⟩
  | created others =>
    refine ⟨⟨?_,?_⟩,rfl⟩
    · rw [List.map_append,List.nodup_append]
      refine ⟨valid.distinct,by simp,?_⟩
      intro a member b single same
      obtain ⟨r,here,rfl⟩ := List.mem_map.mp member
      have last : b = eid := by simpa using single
      exact others r here (same.trans last)
    · intro r member
      rcases List.mem_append.mp member with old | new
      · exact valid.each r old
      · rw [List.mem_singleton.mp new]
        exact ⟨fun s none_yet => (nomatch none_yet),fun some_packets => some_packets⟩

theorem queuePacket_adds (queued : queuePacket skb q kernel = (filled,after)) :
    ∃ id sys, filled = {q with sys := sys,skbs := q.skbs ++ [{skb with id := id}]} := by
  unfold queuePacket at queued
  split at queued
  · cases queued
    exact ⟨_,_,rfl⟩
  · cases queued
    exact ⟨skb.id,_,rfl⟩

theorem queuePacket_sys (queued : queuePacket skb q kernel = (filled,after)) (sys : filled.sys = true) :
    q.sys = true ∧ mindex skb ≠ 0x3f := by
  unfold queuePacket at queued
  split at queued
  · rename_i systematic
    cases queued
    exact ⟨sys,systematic⟩
  · cases queued
    cases sys

section
variable (accepts : Accepts now skb a before q after filled kernel) (fits : Fits skb) (valid : ValidQueues a.queues)
include accepts fits valid

theorem accepts_filled : ValidQueues (before ++ q :: after) ∧ filled.eid = q.eid ∧ filled.kp = q.kp ∧
      (∀ s ∈ filled.skbs, s.byte 0 = filled.kp ∧ s.byte 1 = filled.eid ∧ Fits s) ∧
      filled.skbs.length = q.skbs.length + 1 ∧ ∃ new, filled.skbs = q.skbs ++ [new] := by
  have kept : ValidQueues (a.expire now).queues := valid_sublist valid List.filter_sublist
  obtain ⟨opened,eid⟩ := opens_valid kept accepts.opens
  obtain ⟨_,_,rfl⟩ := queuePacket_adds accepts.queued
  refine ⟨opened,rfl,rfl,?_,by simp,_,rfl⟩
  intro s member
  rcases List.mem_append.mp member with old | new
  · exact (opened.each q (by simp)).packets s old
  · rw [List.mem_singleton.mp new]
    exact ⟨accepts.kp.symm,eid.symm,fits.positive,fits.index⟩

theorem filled_generates (full : filled.skbs.length = kOf (skb.byte 0)) : Generates (kOf (skb.byte 0)) filled.skbs := by
  obtain ⟨_,_,kp,packets,_⟩ := accepts_filled accepts fits valid
  refine ⟨full,?_⟩
  intro s member
  obtain ⟨first,_,good⟩ := packets s member
  rw [← accepts.kp,← kp,← first]
  exact good.index

theorem accepts_outcome (full : filled.skbs.length = kOf (skb.byte 0))
    (ran : skbsDecoding filled.skbs (skb.byte 0) kernel = some d) :
    Outcome (kOf (skb.byte 0)) (pOf (skb.byte 0)) filled.skbs kernel d := by
  obtain ⟨_,_,_,_,_,_⟩ := accepts_filled accepts fits valid
  have some_packets : 0 < kOf (skb.byte 0) := by omega
  obtain ⟨_,same,outcome⟩ := skbsDecoding_outcome (skb.byte 0) (filled_generates accepts fits valid full)
    some_packets fits.positive kernel
  rw [ran] at same
  cases same
  exact outcome

end

theorem outcome_failed (outcome : Outcome k p pkts kernel d) (bad : d.ok = false) :
    ∃ dropped, dropped ≠ [] ∧ (dropped ++ d.skbs).Perm pkts ∧
      d.kernel = {kernel with log := kernel.log ++ dropped.map .freed} := by
  cases outcome with
  | duplicate _ packets => exact ⟨[_],by simp,packets,rfl⟩
  | dependent _ _ nonempty _ packets => exact ⟨_,nonempty,packets,rfl⟩
  | solved => cases bad

theorem failed_keeps (accepts : Accepts now skb a before q after filled kernel) (fits : Fits skb)
    (valid : ValidQueues a.queues) (full : filled.skbs.length = kOf (skb.byte 0))
    (ran : skbsDecoding filled.skbs (skb.byte 0) kernel = some d) (bad : d.ok = false) :
    List.Subperm d.skbs filled.skbs ∧ d.skbs.length < filled.skbs.length := by
  obtain ⟨dropped,nonempty,packets,_⟩ := outcome_failed (accepts_outcome accepts fits valid full ran) bad
  have total := packets.length_eq
  rw [List.length_append] at total
  have lost := List.length_pos_of_ne_nil nonempty
  refine ⟨?_,by omega⟩
  exact (List.sublist_append_right dropped d.skbs).subperm.trans packets.subperm

theorem takes_valid (valid : ValidQueues a.queues) (fits : Fits skb) (takes : Takes par now skb a b) :
    ValidQueues b.queues := by
  cases takes with
  | closed => exact valid_sublist valid List.filter_sublist
  | wrongKp fresh opens => exact (opens_valid (valid_sublist valid List.filter_sublist) opens).1
  | waiting accepts short =>
    obtain ⟨opened,eid,kp,packets,_,_⟩ := accepts_filled accepts fits valid
    refine valid_replace opened eid ⟨packets,fun some_packets => ?_⟩
    rw [kp] at some_packets ⊢
    have before := (opened.each _ (by simp)).short some_packets
    rw [accepts.kp] at before ⊢
    have other : _ ≠ kOf (skb.byte 0) := short
    omega
  | systematic accepts | decoded accepts =>
    obtain ⟨opened,_⟩ := accepts_filled accepts fits valid
    exact valid_sublist opened ((List.sublist_cons_self _ _).append_left _)
  | failed accepts full sys ran bad =>
    obtain ⟨opened,eid,kp,packets,_⟩ := accepts_filled accepts fits valid
    obtain ⟨kept,_⟩ := failed_keeps accepts fits valid full ran bad
    refine valid_replace opened eid ⟨fun s member => packets s (kept.subset member),fun _ => ?_⟩
    have total : _ = kOf (skb.byte 0) := full
    dsimp only
    rw [kp,accepts.kp]
    omega

theorem receives_valid (valid : ValidQueues a.queues) (fits : e.Fits) (receives : Receives e a b) : ValidQueues b.queues := by
  cases receives with
  | other | control => exact valid
  | mnc skb buffer kind takes =>
    subst buffer
    exact takes_valid (a := {a with kernel := {a.kernel with nextSkb := a.kernel.nextSkb + 1}}) valid (fits.renamed kind) takes

theorem reached_queues (reached : Reached random s) : ∃ a, Represents s a ∧ ValidQueues a.queues := by
  induction reached with
  | start => exact ⟨_,initial_represents random,List.nodup_nil,fun _ none_yet => (nomatch none_yet)⟩
  | step prior fits ran ih =>
    obtain ⟨a,represents,valid⟩ := ih
    obtain ⟨b,receives,after⟩ := receive_receives represents ran
    exact ⟨b,after,receives_valid valid fits receives⟩

theorem runs_keep (inv : Queues → Prop) (start : inv (Queues.start random))
    (kept : ∀ e s a b, Represents s a → ValidQueues a.queues → inv a → e.Fits →
      (ethertype e.skb = 0x0810 → met e s) → Receives e a b → inv b) (run : Runs random met s) :
    ∃ a, Represents s a ∧ ValidQueues a.queues ∧ inv a := by
  induction run with
  | start =>
    exact ⟨_,initial_represents random,⟨List.nodup_nil,fun _ none_yet => (nomatch none_yet)⟩,start⟩
  | step prior fits ok ran ih =>
    obtain ⟨a,represents,valid,holds⟩ := ih
    obtain ⟨b,receives,after⟩ := receive_receives represents ran
    exact ⟨b,after,receives_valid valid fits receives,kept _ _ a b represents valid holds fits ok receives⟩

-- Queue q of record mncq is full, and d is what it is decoded to.
structure Decodes (e : Arrival) (s : State) (mncq : Nat) (q : MncQueue) (d : Decoded) : Prop where
  kind : ethertype e.skb = 0x0810
  call : ∃ t, enqueue e.jiffies (stripEthertype {e.skb with id := s.kernel.nextSkb})
      {s with kernel := {s.kernel with nextSkb := s.kernel.nextSkb + 1}} = some (.queued mncq t) ∧
    (t.list.nodes mncq).map (·.val) = some q ∧ q.sys = false ∧
    q.skbs.length = kOf ((stripEthertype e.skb).byte 0) ∧
    skbsDecoding q.skbs ((stripEthertype e.skb).byte 0) t.kernel = some d

theorem decodes_failed (represents : Represents s a) (valid : ValidQueues a.queues) (fits : e.Fits)
    (decodes : Decodes e s mncq q d) (bad : d.ok = false) :
    (List.Subperm d.skbs q.skbs ∧ d.skbs.length < q.skbs.length) ∧
      ∃ t, receive e s = some t ∧ (t.list.nodes mncq).map (·.val) = some {q with skbs := d.skbs} := by
  obtain ⟨kind,t,admitted,node,sys,full,ran⟩ := decodes
  obtain ⟨cells,lastDid,kernel⟩ := represents
  have before : Represents {s with kernel := {s.kernel with nextSkb := s.kernel.nextSkb + 1}}
      {a with kernel := {a.kernel with nextSkb := a.kernel.nextSkb + 1}} := ⟨cells,lastDid,by rw [kernel]⟩
  obtain ⟨_,same,outcome⟩ := admit_returns before e.jiffies (stripEthertype {e.skb with id := s.kernel.nextSkb})
  rw [admitted] at same
  cases same
  cases outcome with
  | queued accepts linked =>
    obtain ⟨n,here,rfl,_⟩ := linked.node
    rw [here] at node
    cases node
    have content := fits kind
    refine ⟨failed_keeps accepts ⟨content.positive,content.index⟩ valid full ran bad,?_⟩
    obtain ⟨list,written,linked⟩ := linked.setVal {n.val with skbs := d.skbs}
    obtain ⟨m,there,value,_⟩ := linked.node
    have not_sys : ¬n.val.sys = true := by simp [sys]
    have failed : ¬d.ok = true := by simp [bad]
    refine ⟨{t with list := list,kernel := d.kernel},?_,by rw [there,Option.map_some,value]⟩
    have kind : ethertype {e.skb with id := s.kernel.nextSkb} = 0x0810 := kind
    have full : n.val.skbs.length = ((stripEthertype {e.skb with id := s.kernel.nextSkb}).byte 0 >>> 2).toNat := full
    have ran : skbsDecoding n.val.skbs ((stripEthertype {e.skb with id := s.kernel.nextSkb}).byte 0) t.kernel = some d := ran
    rw [receive,decodingTry,if_neg (by rw [kind]; decide),if_neg (by rw [kind]; decide)]
    simp only [admitted,complete,here]
    rw [if_pos full,if_neg not_sys,ran]
    simp only [written]
    rw [if_neg failed]

theorem receive_queue_invariant (reached : Reached random s) :
    (∃ cells, Linked s.list () cells ∧ ValidQueues (cells.map Prod.snd)) ∧
    ∀ e, e.Fits → ∀ mncq q d, Decodes e s mncq q d → d.ok = false →
      (List.Subperm d.skbs q.skbs ∧ d.skbs.length < q.skbs.length) ∧
      ∃ t, receive e s = some t ∧ (t.list.nodes mncq).map (·.val) = some {q with skbs := d.skbs} := by
  obtain ⟨a,represents,valid⟩ := reached_queues reached
  refine ⟨?_,fun e fits mncq q d decodes bad => decodes_failed represents valid fits decodes bad⟩
  obtain ⟨cells,linked,queues,_⟩ := represents.cells
  exact ⟨cells,linked,queues ▸ valid⟩

def Relays (par : TrParam) (now : UInt64) (skb : Skb) (a : Queues) : Prop :=
  ∀ before q after filled kernel d, Accepts now skb a before q after filled kernel →
    filled.skbs.length = kOf (skb.byte 0) → skbsDecoding filled.skbs (skb.byte 0) kernel = some d → d.ok = true →
    ∃ relayed, relay par (d.newskbs.map Prod.snd) skb.dev (skb.byte 1) d.kernel = some relayed

theorem complete_returns (accepts : Accepts now skb a (xs.map Prod.snd) q (ys.map Prod.snd) filled s.kernel)
    (linked : Linked s.list () (xs ++ (c,filled) :: ys)) (fits : Fits skb) (valid : ValidQueues a.queues)
    (relays : Relays par now skb a) : ∃ t, complete par skb.dev (skb.byte 1) (skb.byte 0) c s = some t := by
  obtain ⟨n,here,rfl,_⟩ := linked.node
  simp only [complete,here]
  by_cases full : n.val.skbs.length = kOf (skb.byte 0)
  · by_cases sys : n.val.sys = true
    · obtain ⟨_,freed,_⟩ := mncQueueFree_linked linked s.kernel
      rw [if_pos full,if_pos sys,freed]
      exact ⟨_,rfl⟩
    obtain ⟨_,_,_,_,_,_⟩ := accepts_filled accepts fits valid
    have some_packets : 0 < kOf (skb.byte 0) := by omega
    obtain ⟨d,ran,_⟩ := skbsDecoding_outcome (skb.byte 0) (filled_generates accepts fits valid full) some_packets
      fits.positive s.kernel
    obtain ⟨_,written,linked⟩ := linked.setVal {n.val with skbs := d.skbs}
    rw [if_pos full,if_neg sys,ran]
    simp only [written]
    split
    · rename_i ok
      obtain ⟨relayed,sent⟩ := relays _ _ _ _ _ d accepts full ran ok
      obtain ⟨_,freed,_⟩ := mncQueueFree_linked linked (deliver (skb.byte 1) d.newskbs relayed)
      simp only [sent,freed]
      exact ⟨_,rfl⟩
    · exact ⟨_,rfl⟩
  · rw [if_neg full]
    exact ⟨_,rfl⟩

theorem receive_relays (represents : Represents s a) (valid : ValidQueues a.queues) (fits : e.Fits)
    (relays : ethertype e.skb = 0x0810 → Relays e.par e.jiffies (stripEthertype {e.skb with id := a.kernel.nextSkb})
      {a with kernel := {a.kernel with nextSkb := a.kernel.nextSkb + 1}}) : ∃ t, receive e s = some t := by
  obtain ⟨cells,lastDid,kernel⟩ := represents
  unfold receive decodingTry
  rw [kernel]
  split
  · exact ⟨_,rfl⟩
  rename_i other
  split
  · exact ⟨_,rfl⟩
  rename_i control
  have kind : ethertype e.skb = 0x0810 := by
    by_contra not_mnc
    exact other ⟨not_mnc,control⟩
  have content := fits kind
  have before : Represents {s with kernel := {a.kernel with nextSkb := a.kernel.nextSkb + 1}}
      {a with kernel := {a.kernel with nextSkb := a.kernel.nextSkb + 1}} := ⟨cells,lastDid,rfl⟩
  obtain ⟨_,admission,outcome⟩ := admit_returns before e.jiffies (stripEthertype {e.skb with id := a.kernel.nextSkb})
  simp only [admission]
  cases outcome with
  | closed | wrongKp => exact ⟨_,rfl⟩
  | queued accepts linked =>
    exact complete_returns accepts linked ⟨content.positive,content.index⟩ valid (relays kind)

def sampleFrame (content : List UInt8) : Arrival :=
  ⟨{(default : Skb) with
    mem := fun a => if a = 14 then 0x08 else if a = 15 then 0x10 else content.getD (a - 16) 0
    data := 16
    len := content.length
    macHeader := 2},0,{}⟩

def sampleStart : State := initial fun _ => 0

def sampleRun (frames : List Arrival) : Returns State := frames.foldlM (fun s e => receive e s) sampleStart

theorem receive_queue_invariant_sample : ∃ s, sampleRun [sampleFrame [0x09,7,0,5],sampleFrame [0x09,9,4,6]] = some s ∧
    (∃ cells, Linked s.list () cells ∧ ValidQueues (cells.map Prod.snd)) ∧
    ∀ e, e.Fits → ∀ mncq q d, Decodes e s mncq q d → d.ok = false →
      (List.Subperm d.skbs q.skbs ∧ d.skbs.length < q.skbs.length) ∧
      ∃ t, receive e s = some t ∧ (t.list.nodes mncq).map (·.val) = some {q with skbs := d.skbs} := by
  have fits : (sampleFrame [0x09,7,0,5]).Fits := fun _ => ⟨by decide,by decide⟩
  have fits' : (sampleFrame [0x09,9,4,6]).Fits := fun _ => ⟨by decide,by decide⟩
  have begun : Reached (fun _ => 0) sampleStart := .start
  exact ⟨_,rfl,receive_queue_invariant (.step (.step begun fits rfl) fits' rfl)⟩

end Mac80211.MncRx

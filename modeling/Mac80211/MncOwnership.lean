import Mac80211.MncDelivery

namespace Mac80211.MncRx

open List (map_append count_append perm_iff_count map_nil map_cons map_map flatMap_append count_nil count_cons flatMap_cons)

def ids (queues : List MncQueue) (log : List Fate) : List Nat :=
  (queues.flatMap (·.skbs)).map (·.id) ++ log.map (·.skb.id)

-- Every buffer made so far is in one queue or has met one fate, and none of them twice.
def Owned (a : Queues) : Prop := (ids a.queues a.kernel.log).Perm (List.range a.kernel.nextSkb)

structure Completes (now : UInt64) (skb : Skb) (a : Queues) : Prop where
  full : (met now skb a).skbs.length + 1 = kOf (skb.byte 0)
  mixed : (met now skb a).sys = false ∨ mindex skb = 0x3f
  distinct : Distinct ((met now skb a).skbs ++ [skb])
  regular : Regular (kOf (skb.byte 0)) (pOf (skb.byte 0)) ((met now skb a).skbs ++ [skb])

theorem ids_expire (a : Queues) (now : UInt64) :
    (ids (a.expire now).queues (a.expire now).kernel.log).Perm (ids a.queues a.kernel.log) := by
  have split := (List.filter_append_perm (expired now) a.queues).flatMap_right (·.skbs)
  have parts := split.map (·.id)
  simp only [ids,Queues.expire,skbQueuePurge_log,map_append,map_map,flatMap_append] at parts ⊢
  rw [perm_iff_count] at parts ⊢
  intro i
  have count := parts i
  simp only [count_append,Function.comp_def,Fate.skb] at count ⊢
  omega

theorem opens_ids (opens : Opens now eid kp queues before q after) (log : List Fate) :
    ids (before ++ q :: after) log = ids queues log := by
  cases opens with
  | found => rfl
  | created => simp [ids]

theorem middle_ids (before : List MncQueue) (q : MncQueue) (after : List MncQueue) (log : List Fate) :
    (ids (before ++ q :: after) log).Perm (q.skbs.map (·.id) ++ ids (before ++ after) log) := by
  rw [perm_iff_count]
  intro i
  simp only [ids,flatMap_append,flatMap_cons,map_append,count_append]
  omega

theorem skbDecodingSys_id (skb : Skb) : (skbDecodingSys skb).id = skb.id := by
  unfold skbDecodingSys skbPull
  dsimp only
  split <;> rfl

theorem accepts_owned (owned : (skb.id :: ids a.queues a.kernel.log).Perm (List.range a.kernel.nextSkb))
    (accepts : Accepts now skb a before q after filled kernel) :
    (ids (before ++ filled :: after) kernel.log).Perm (List.range kernel.nextSkb) := by
  have opened := opens_ids accepts.opens (a.expire now).kernel.log
  have start := ((ids_expire a now).cons skb.id).trans owned
  rw [← opened] at start
  have next : (a.expire now).kernel.nextSkb = a.kernel.nextSkb := by simp [Queues.expire,skbQueuePurge_log]
  rw [← next] at start
  have queued := accepts.queued
  unfold queuePacket at queued
  split at queued
  · obtain ⟨rfl,rfl⟩ := Prod.mk.inj queued
    simp only [netifReceiveSkb,Kernel.record]
    rw [List.range_succ]
    rw [perm_iff_count] at start ⊢
    intro i
    have count := start i
    have received : (Fate.received (skbDecodingSys skb) (some (skb.byte 1,mindex skb))).skb.id = skb.id :=
      skbDecodingSys_id skb
    simp only [ids,flatMap_append,flatMap_cons,map_append,map_cons,map_nil,count_append,
      count_cons,count_nil,received] at count ⊢
    omega
  · obtain ⟨rfl,rfl⟩ := Prod.mk.inj queued
    rw [perm_iff_count] at start ⊢
    intro i
    have count := start i
    simp only [ids,flatMap_append,flatMap_cons,map_append,map_cons,map_nil,count_append,count_cons,count_nil] at count ⊢
    omega

theorem expire_next (a : Queues) (now : UInt64) : (a.expire now).kernel.nextSkb = a.kernel.nextSkb := by
  simp [Queues.expire,skbQueuePurge_log]

theorem drop_owned {a : Queues} (owned : (skb.id :: ids a.queues a.kernel.log).Perm (List.range a.kernel.nextSkb))
    (same : ids queues (a.expire now).kernel.log = ids (a.expire now).queues (a.expire now).kernel.log) :
    Owned ⟨queues,did,kfreeSkb (some skb) (a.expire now).kernel⟩ := by
  have start := ((ids_expire a now).cons skb.id).trans owned
  rw [← same] at start
  simp only [Owned,kfreeSkb,Kernel.record,expire_next]
  rw [perm_iff_count] at start ⊢
  intro i
  have count := start i
  simp only [ids,map_append,map_cons,map_nil,count_append,count_cons,count_nil,Fate.skb] at count ⊢
  omega

theorem completes_decoded (accepts : Accepts now skb a before q after filled kernel)
    (full : filled.skbs.length = kOf (skb.byte 0)) (sys : filled.sys = false)
    (distinct : Distinct filled.skbs) (regular : Regular (kOf (skb.byte 0)) (pOf (skb.byte 0)) filled.skbs) :
    Completes now skb a := by
  obtain ⟨same,_⟩ := accepts_met accepts
  have queued := accepts.queued
  unfold queuePacket at queued
  split at queued
  · obtain ⟨rfl,rfl⟩ := Prod.mk.inj queued
    rw [same] at full sys distinct regular
    refine ⟨by simpa using full,.inl sys,?_,?_⟩
    · exact (distinct_renamed _ skb _).mp distinct
    · exact (regular_renamed _ skb _).mp regular
  · rename_i coded
    obtain ⟨rfl,rfl⟩ := Prod.mk.inj queued
    rw [same] at full distinct regular
    exact ⟨by simpa using full,.inr (not_not.mp coded),distinct,regular⟩

theorem takes_owned (owned : (skb.id :: ids a.queues a.kernel.log).Perm (List.range a.kernel.nextSkb))
    (valid : ValidQueues a.queues) (fits : Fits skb) (keeps : Taken now skb a → ¬Completes now skb a)
    (takes : Takes par now skb a b) : Owned b := by
  cases takes with
  | closed => exact drop_owned owned rfl
  | wrongKp fresh opens => exact drop_owned owned (opens_ids opens _)
  | waiting accepts => exact accepts_owned owned accepts
  | @systematic before q after filled kernel accepts =>
    have all := (middle_ids before filled after kernel.log).symm.trans (accepts_owned owned accepts)
    simp only [Owned,skbQueuePurge_log]
    rw [perm_iff_count] at all ⊢
    intro i
    have count := all i
    simp only [ids,map_append,map_map,Function.comp_def,count_append,Fate.skb] at count ⊢
    omega
  | @failed before q after filled kernel d accepts full sys ran bad =>
    have all := (middle_ids before filled after kernel.log).symm.trans (accepts_owned owned accepts)
    obtain ⟨_,_,packets,freed⟩ := outcome_failed (accepts_outcome accepts fits valid full ran) bad
    have names := packets.map (·.id)
    have rest := middle_ids before {filled with skbs := d.skbs} after d.kernel.log
    refine rest.trans ?_
    rw [freed]
    rw [perm_iff_count] at all names ⊢
    intro i
    have count := all i
    have name := names i
    simp only [ids,map_append,map_map,Function.comp_def,count_append,Fate.skb] at count name ⊢
    omega
  | @decoded before q after filled kernel d relayed accepts full sys ran ok =>
    have outcome := accepts_outcome accepts fits valid full ran
    obtain ⟨_,taken⟩ := accepts_met accepts
    cases outcome with
    | duplicate => cases ok
    | dependent => cases ok
    | solved distinct regular => exact absurd (completes_decoded accepts full sys distinct regular) (keeps taken)

theorem arrive_owned (owned : Owned a) : (a.kernel.nextSkb :: ids a.queues a.kernel.log).Perm
    (List.range (a.kernel.nextSkb + 1)) := by
  rw [List.range_succ]
  exact (owned.cons _).trans (List.perm_append_singleton _ _).symm

theorem pass_owned (owned : Owned a) (fate : Fate) (buffer : fate.skb.id = a.kernel.nextSkb) :
    Owned {a with kernel := Kernel.record {a.kernel with nextSkb := a.kernel.nextSkb + 1} fate} := by
  have arrived := arrive_owned owned
  simp only [Owned,Kernel.record,ids,map_append,map_cons,map_nil,buffer] at arrived ⊢
  rw [← List.append_assoc]
  exact (List.perm_append_singleton _ _).trans arrived

theorem receives_owned (owned : Owned a) (valid : ValidQueues a.queues) (fits : e.Fits)
    (keeps : ethertype e.skb = 0x0810 → Taken e.jiffies e.packet a → ¬Completes e.jiffies e.packet a)
    (receives : Receives e a b) : Owned b := by
  cases receives with
  | other skb buffer => exact pass_owned owned (.received skb none) (congrArg Skb.id buffer)
  | control skb buffer => exact pass_owned owned (.control skb) (congrArg Skb.id buffer)
  | mnc skb buffer kind takes =>
    subst buffer
    refine takes_owned (a := {a with kernel := {a.kernel with nextSkb := a.kernel.nextSkb + 1}}) (arrive_owned owned)
      valid (fits.renamed kind) ?_ takes
    rintro taken ⟨full,mixed,distinct,regular⟩
    refine keeps kind taken ⟨full,mixed,?_,?_⟩
    · exact (distinct_renamed _ e.packet a.kernel.nextSkb).mp distinct
    · exact (regular_renamed _ e.packet a.kernel.nextSkb).mp regular

theorem buffers_owned (run : Runs random (fun e s => Taken e.jiffies e.packet s.view → ¬Completes e.jiffies e.packet s.view) s) :
    (ids s.view.queues s.kernel.log).Perm (List.range s.kernel.nextSkb) := by
  obtain ⟨a,represents,_,owned⟩ := runs_keep Owned (List.Perm.refl [])
    (fun e s a b represents valid owned fits keeps receives => receives_owned owned valid fits
      (by rw [← represents_view represents]; exact keeps) receives) run
  have view := represents_view represents
  rw [view,represents.kernel]
  exact owned

theorem buffers_owned_sample : ∃ s, sampleRun [sampleFrame [0x09,7,0,5],sampleFrame [0x09,7,4,6]] = some s ∧
    (ids s.view.queues s.kernel.log).Perm (List.range s.kernel.nextSkb) := by
  have fits : (sampleFrame [0x09,7,0,5]).Fits := fun _ => ⟨by decide,by decide⟩
  have fits' : (sampleFrame [0x09,7,4,6]).Fits := fun _ => ⟨by decide,by decide⟩
  have begun : Runs (fun _ => 0)
    (fun e s => Taken e.jiffies e.packet s.view → ¬Completes e.jiffies e.packet s.view) sampleStart := .start
  refine ⟨_,rfl,buffers_owned (.step (.step begun fits (fun _ _ completes => ?_) rfl) fits' (fun _ _ completes => ?_) rfl)⟩
  · exact absurd completes.full (by decide)
  · exact absurd completes.mixed (by decide)

theorem buffer_lost : ∃ s, Reached (fun _ => 0) s ∧
    ¬(ids s.view.queues s.kernel.log).Perm (List.range s.kernel.nextSkb) := by
  have fits : (sampleFrame [0x05,7,0xfc,1,5]).Fits := fun _ => ⟨by decide,by decide⟩
  have begun : Reached (fun _ => 0) sampleStart := .start
  refine ⟨_,.step begun fits rfl,?_⟩
  have lost : ¬[1].Perm (List.range 2) := by decide
  exact lost

end Mac80211.MncRx

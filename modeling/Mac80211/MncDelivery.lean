import Mac80211.MncInvariant
import Mac80211.MncSends

namespace Mac80211.MncRx
open LinkedList
open List (append_nil mem_map map_append mem_filter mem_append mem_singleton map_map nodup_append filter_append)

theorem handed_expire (a : Queues) (now : UInt64) : handed (a.expire now).kernel.log = handed a.kernel.log := by
  simp [Queues.expire,skbQueuePurge_log]

theorem handed_purge (skbs : List Skb) (kernel : Kernel) : handed (skbQueuePurge skbs kernel).log = handed kernel.log := by
  simp [skbQueuePurge_log]

theorem handed_free (skb : Skb) (kernel : Kernel) : handed (kfreeSkb (some skb) kernel).log = handed kernel.log := by
  simp [kfreeSkb,Kernel.record]

theorem queuePacket_handed (queued : queuePacket skb q kernel = (filled,after)) :
    handed after.log = handed kernel.log ++ if mindex skb ≠ 0x3f then [(skb.byte 1,mindex skb)] else [] := by
  unfold queuePacket at queued
  split at queued
  · rename_i systematic
    obtain ⟨rfl,rfl⟩ := Prod.mk.inj queued
    rw [if_pos systematic]
    simp [netifReceiveSkb,Kernel.record]
    rfl
  · rename_i coded
    obtain ⟨rfl,rfl⟩ := Prod.mk.inj queued
    rw [if_neg coded,append_nil]

theorem outcome_handed (outcome : Outcome k p pkts kernel d) : handed d.kernel.log = handed kernel.log := by
  cases outcome with
  | duplicate => simp [Kernel.record]
  | dependent => simp
  | @solved isSys skb newskb =>
    have freed : ((List.range k).filter isSys).map (fun i => Fate.freed (newskb i)) =
      (((List.range k).filter isSys).map newskb).map .freed := by rw [map_map]; rfl
    simp only [handed_append,freed,handed_freed,append_nil]

theorem relay_log (ran : relay par newskbs rdev eid kernel = some after) :
    ∃ sent : List Skb, after.log = kernel.log ++ sent.map fun s => .sent s rdev := by
  unfold relay at ran
  split at ran
  · obtain ⟨⟨_,_⟩,encoded,rfl⟩ := Option.map_eq_some_iff.mp ran
    obtain ⟨result,_,_,_,rfl⟩ := MncTx.mncEncodingTx_sends encoded
    exact ⟨result,rfl⟩
  · cases ran
    exact ⟨[],by simp⟩

section
variable (eid : UInt8) (newskbs : List (Nat × Skb)) (kernel : Kernel)

theorem deliver_log : deliver eid newskbs kernel =
      {kernel with log := kernel.log ++ newskbs.map fun s => .received s.2 (some (eid,s.1))} := by
  unfold deliver
  induction newskbs generalizing kernel with
  | nil => simp
  | cons s rest ih =>
    rw [List.foldl_cons,ih]
    simp [netifReceiveSkb,Kernel.record]

theorem handed_deliver : handed (deliver eid newskbs kernel).log = handed kernel.log ++ newskbs.map fun s => (eid,s.1) := by
  rw [deliver_log]
  simp [handed,Fate.original,List.filterMap_map,Function.comp_def]

end

def Arrival.packet (e : Arrival) : Skb := stripEthertype e.skb

def met (now : UInt64) (skb : Skb) (a : Queues) : MncQueue := openedQueue a.queues now (skb.byte 1) (skb.byte 0)

def Taken (now : UInt64) (skb : Skb) (a : Queues) : Prop := skb.byte 1 ∉ a.lastDid.toList ∧ (met now skb a).kp = skb.byte 0

-- The index is not waiting, and a queue is opened only if nothing of its eid was handed up.
structure Fresh (now : UInt64) (skb : Skb) (a : Queues) : Prop where
  index : Taken now skb a → mindex skb ≠ 0x3f → ∀ p ∈ (met now skb a).skbs, mindex p ≠ mindex skb
  opening : Taken now skb a → (∀ q ∈ a.queues, q.eid = skb.byte 1 → expired now q = true) →
    ∀ i, (skb.byte 1,i) ∉ handed a.kernel.log

structure Sound (log : List Fate) (q : MncQueue) : Prop where
  distinct : Distinct q.skbs
  waiting : ∀ i, (q.eid,i) ∈ handed log → ∃ s ∈ q.skbs, mindex s = i ∧ i ≠ 0x3f

-- At most once: what was handed up of an eid is apart from what waits in its queue.
structure Once (a : Queues) : Prop where
  nodup : (handed a.kernel.log).Nodup
  each : ∀ q ∈ a.queues, Sound a.kernel.log q

theorem sound_log (sound : Sound log q) (same : ∀ i, (q.eid,i) ∈ handed other → (q.eid,i) ∈ handed log) : Sound other q :=
  ⟨sound.distinct,fun i here => sound.waiting i (same i here)⟩

theorem distinct_append (distinct : Distinct skbs) (fresh : mindex new ≠ 0x3f → ∀ p ∈ skbs, mindex p ≠ mindex new) :
    Distinct (skbs ++ [new]) := by
  unfold Distinct at *
  rw [filter_append,map_append]
  cases coded : isCoded new with
  | true => simpa [coded] using distinct
  | false =>
    have other : mindex new ≠ 0x3f := by simpa [isCoded] using coded
    rw [List.filter_cons_of_pos (by simp [coded]),List.filter_nil,nodup_append]
    refine ⟨distinct,by simp,?_⟩
    intro m member n single same
    obtain ⟨p,here,rfl⟩ := mem_map.mp member
    have last : n = mindex new := by simpa using single
    exact fresh other p (mem_filter.mp here).1 (same.trans last)

theorem regular_renamed (xs : List Skb) (skb : Skb) (buffer : Nat) :
    Regular k p (xs ++ [{skb with id := buffer}]) ↔ Regular k p (xs ++ [skb]) := by
  have same : coefficientMatrix p (xs ++ [{skb with id := buffer}]) = coefficientMatrix p (xs ++ [skb]) := by
    funext r c
    unfold coefficientMatrix
    simp only [List.getD_eq_getElem?_getD]
    rcases Nat.lt_trichotomy (r / p) xs.length with inside | last | _
    · rw [List.getElem?_append_left inside,List.getElem?_append_left inside]
    · rw [last,List.getElem?_concat_length,List.getElem?_concat_length]
      rfl
    · rw [List.getElem?_eq_none (by simp; omega),List.getElem?_eq_none (by simp; omega)]
  rw [Regular,Regular,same]

theorem distinct_renamed (xs : List Skb) (skb : Skb) (buffer : Nat) :
    Distinct (xs ++ [{skb with id := buffer}]) ↔ Distinct (xs ++ [skb]) := by
  unfold Distinct
  rw [filter_append,filter_append,map_append,map_append]
  have same : ([{skb with id := buffer}].filter fun s => !isCoded s).map mindex =
      ([skb].filter fun s => !isCoded s).map mindex := by
    have mark : isCoded {skb with id := buffer} = isCoded skb := rfl
    simp only [List.filter_cons,mark]
    cases isCoded skb <;> rfl
  rw [same]

theorem distinct_perm (order : xs.Perm ys) (distinct : Distinct xs) : Distinct ys :=
  ((order.filter _).map _).nodup_iff.mp distinct

theorem accepts_met (accepts : Accepts now skb a before q after filled kernel) : q = met now skb a ∧ Taken now skb a := by
  have same := opens_opened accepts.opens
  refine ⟨same,accepts.fresh,?_⟩
  rw [met,← same]
  exact accepts.kp

section
variable {queues : List MncQueue} (opens : Opens now eid kp (queues.filter fun q => !expired now q) before q after)
include queues opens

theorem opens_old : q ∈ queues ∨ q = ⟨eid,now,kp,true,[]⟩ ∧ ∀ r ∈ queues, r.eid = eid → expired now r = true := by
  generalize same : queues.filter (fun q => !expired now q) = kept at opens
  cases opens with
  | found =>
    refine .inl (List.mem_of_mem_filter (p := fun q => !expired now q) ?_)
    rw [same]
    simp
  | created others =>
    refine .inr ⟨rfl,fun r member here => ?_⟩
    by_contra alive
    refine others r ?_ here
    rw [← same]
    exact mem_filter.mpr ⟨member,by simpa using alive⟩

theorem opens_others (member : r ∈ before ++ after) : r ∈ queues := by
  generalize same : queues.filter (fun q => !expired now q) = kept at opens
  have inside : r ∈ kept := by
    cases opens with
    | found => exact ((List.sublist_cons_self _ _).append_left _).subset member
    | created => simpa using member
  rw [← same] at inside
  exact (mem_filter.mp inside).1

end

theorem mem_middle (member : r ∈ before ++ q :: after) : r = q ∨ r ∈ before ++ after := by
  simp only [mem_append,List.mem_cons] at member ⊢
  tauto

theorem opens_wrong {queues : List MncQueue} (opens : Opens now eid kp (queues.filter fun q => !expired now q) before q after)
    (other : q.kp ≠ kp) (member : r ∈ before ++ q :: after) : r ∈ queues := by
  rcases mem_middle member with rfl | inside
  · rcases opens_old opens with old | ⟨rfl,_⟩
    · exact old
    · exact absurd rfl other
  · exact opens_others opens inside

theorem accepts_once (once : Once a) (valid : ValidQueues a.queues) (fresh : Fresh now skb a)
    (accepts : Accepts now skb a before q after filled kernel) :
    (handed kernel.log).Nodup ∧ filled.eid = skb.byte 1 ∧ Sound kernel.log filled ∧
      ∀ r ∈ before ++ after, r.eid ≠ skb.byte 1 ∧ Sound kernel.log r := by
  obtain ⟨same,taken⟩ := accepts_met accepts
  have index := fresh.index taken
  rw [← same] at index
  obtain ⟨opened,eid⟩ := opens_valid (valid_sublist valid List.filter_sublist) accepts.opens
  have sound : Sound a.kernel.log q := by
    rcases opens_old accepts.opens with here | ⟨rfl,none_open⟩
    · exact once.each q here
    · exact ⟨List.nodup_nil,fun i member => absurd member (fresh.opening taken none_open i)⟩
  have labels := queuePacket_handed accepts.queued
  rw [handed_expire] at labels
  obtain ⟨_,_,rfl⟩ := queuePacket_adds accepts.queued
  refine ⟨?_,eid,⟨distinct_append sound.distinct index,?_⟩,?_⟩
  · rw [labels]
    split
    · rename_i systematic
      rw [nodup_append]
      refine ⟨once.nodup,by simp,?_⟩
      rintro _ member other single rfl
      rw [mem_singleton.mp single,← eid] at member
      obtain ⟨s,here,again,_⟩ := sound.waiting _ member
      exact index systematic s here again
    · rw [append_nil]
      exact once.nodup
  · intro i member
    rw [labels] at member
    rcases mem_append.mp member with before | new
    · obtain ⟨s,here,facts⟩ := sound.waiting i before
      exact ⟨s,List.mem_append_left _ here,facts⟩
    · split at new
      · have index : i = mindex skb := congrArg Prod.snd (mem_singleton.mp new)
        exact ⟨_,List.mem_append_right _ (mem_singleton.mpr rfl),index.symm,by rwa [index]⟩
      · cases new
  intro r member
  have other : r.eid ≠ skb.byte 1 := by
    have names := opened.distinct
    rw [map_append,List.map_cons,List.nodup_middle,← map_append] at names
    intro clash
    exact (List.nodup_cons.mp names).1 (mem_map.mpr ⟨r,member,clash.trans eid.symm⟩)
  refine ⟨other,sound_log (once.each r (opens_others accepts.opens member)) fun i handed_up => ?_⟩
  rw [labels] at handed_up
  rcases mem_append.mp handed_up with before | new
  · exact before
  · split at new
    · exact absurd (congrArg Prod.fst (mem_singleton.mp new)) other
    · cases new

theorem failed_sound (sound : Sound kernel.log q) (outcome : Outcome k p q.skbs kernel d) (bad : d.ok = false) :
    Sound d.kernel.log {q with skbs := d.skbs} := by
  have same := outcome_handed outcome
  cases outcome with
  | duplicate repeated => exact absurd sound.distinct repeated
  | solved => cases bad
  | @dependent dropped skbs _ _ _ coded packets =>
    refine ⟨?_,fun i here => ?_⟩
    · have all := distinct_perm packets.symm sound.distinct
      exact distinct_sublist (List.sublist_append_right dropped skbs) all
    · rw [same] at here
      obtain ⟨s,member,index,systematic⟩ := sound.waiting i here
      refine ⟨s,?_,index,systematic⟩
      rcases mem_append.mp (packets.mem_iff.mpr member) with gone | kept
      · have mark := coded s gone
        simp [isCoded,index,systematic] at mark
      · exact kept

theorem decoded_nodup (sound : Sound kernel.log q) (nodup : (handed kernel.log).Nodup)
    (outcome : Outcome k p q.skbs kernel d) (ok : d.ok = true) :
    (handed kernel.log ++ d.newskbs.map fun s => (q.eid,s.1)).Nodup := by
  cases outcome with
  | duplicate => cases ok
  | dependent => cases ok
  | @solved isSys skb newskb len _ _ solution =>
    have labels : (((List.range k).filter fun i => !isSys i).map fun i => (i,skbTrim (newskb i) len)).map
        (fun s => (q.eid,s.1)) = ((List.range k).filter fun i => !isSys i).map fun i => (q.eid,i) := by
      rw [map_map]; rfl
    rw [labels,nodup_append]
    refine ⟨nodup,?_,?_⟩
    · refine List.Nodup.map ?_ (List.nodup_range.filter _)
      intro i j same
      exact congrArg Prod.snd same
    rintro _ early _ late rfl
    obtain ⟨i,inside,rfl⟩ := mem_map.mp late
    obtain ⟨_,mark⟩ := mem_filter.mp inside
    obtain ⟨s,member,index,_⟩ := sound.waiting i early
    obtain ⟨j,small,rfl⟩ := mem_map.mp (solution.packets.mem_iff.mpr member)
    have slot := solution.index j (List.mem_range.mp small)
    split at slot
    · rename_i sys
      rw [show i = j by omega,sys] at mark
      cases mark
    · omega

theorem takes_once (once : Once a) (valid : ValidQueues a.queues) (fits : Fits skb) (fresh : Fresh now skb a)
    (takes : Takes par now skb a b) : Once b := by
  cases takes with
  | closed =>
    refine ⟨by rw [handed_free,handed_expire]; exact once.nodup,fun q member => ?_⟩
    refine sound_log (once.each q (mem_filter.mp member).1) fun i => ?_
    rw [handed_free,handed_expire]
    exact fun here => here
  | wrongKp _ opens other =>
    refine ⟨by rw [handed_free,handed_expire]; exact once.nodup,fun r member => ?_⟩
    refine sound_log (once.each r (opens_wrong opens other member)) fun i => ?_
    rw [handed_free,handed_expire]
    exact fun here => here
  | waiting accepts =>
    obtain ⟨nodup,eid,sound,others⟩ := accepts_once once valid fresh accepts
    refine ⟨nodup,fun r member => ?_⟩
    rcases mem_middle member with rfl | inside
    · exact sound
    · exact (others r inside).2
  | systematic accepts =>
    obtain ⟨nodup,eid,sound,others⟩ := accepts_once once valid fresh accepts
    refine ⟨by rw [handed_purge]; exact nodup,fun r inside => sound_log (others r inside).2 fun i => ?_⟩
    rw [handed_purge]
    exact fun here => here
  | @failed before q after filled kernel d accepts full sys ran bad =>
    obtain ⟨nodup,eid,sound,others⟩ := accepts_once once valid fresh accepts
    have outcome := accepts_outcome accepts fits valid full ran
    have same := outcome_handed outcome
    refine ⟨by rw [same]; exact nodup,fun r member => ?_⟩
    rcases mem_middle member with rfl | inside
    · exact failed_sound sound outcome bad
    · exact sound_log (others r inside).2 fun i => by rw [same]; exact fun here => here
  | @decoded before q after filled kernel d relayed accepts full sys ran ok sent =>
    obtain ⟨nodup,eid,sound,others⟩ := accepts_once once valid fresh accepts
    have outcome := accepts_outcome accepts fits valid full ran
    obtain ⟨_,log⟩ := relay_log sent
    have labels : handed relayed.log = handed kernel.log := by
      rw [log,handed_append,handed_sent,append_nil,outcome_handed outcome]
    have decoded := decoded_nodup sound nodup outcome ok
    rw [eid] at decoded
    refine ⟨?_,fun r inside => sound_log (others r inside).2 fun i here => ?_⟩
    · rw [handed_purge,handed_deliver,labels]
      exact decoded
    · rw [handed_purge,handed_deliver,labels] at here
      rcases mem_append.mp here with early | late
      · exact early
      · obtain ⟨s,_,same⟩ := mem_map.mp late
        exact absurd (congrArg Prod.fst same).symm (others r inside).1

theorem receives_once (once : Once a) (valid : ValidQueues a.queues) (fits : e.Fits)
    (fresh : ethertype e.skb = 0x0810 → Fresh e.jiffies e.packet a) (receives : Receives e a b) : Once b := by
  cases receives with
  | other skb =>
    have same : handed (netifReceiveSkb skb none {a.kernel with nextSkb := a.kernel.nextSkb + 1}).log =
      handed a.kernel.log := (handed_append _ _).trans (append_nil _)
    refine ⟨by rw [same]; exact once.nodup,fun q member => sound_log (once.each q member) fun i => ?_⟩
    rw [same]
    exact fun here => here
  | control skb =>
    have same : handed (Kernel.record {a.kernel with nextSkb := a.kernel.nextSkb + 1} (.control skb)).log =
      handed a.kernel.log := (handed_append _ _).trans (append_nil _)
    refine ⟨by rw [same]; exact once.nodup,fun q member => sound_log (once.each q member) fun i => ?_⟩
    rw [same]
    exact fun here => here
  | mnc skb buffer kind takes =>
    subst buffer
    have content := fits kind
    have open_queue := fresh kind
    have renamed : Fits (stripEthertype {e.skb with id := a.kernel.nextSkb}) := ⟨content.positive,content.index⟩
    have before : Once {a with kernel := {a.kernel with nextSkb := a.kernel.nextSkb + 1}} := ⟨once.nodup,once.each⟩
    have meets : Fresh e.jiffies (stripEthertype {e.skb with id := a.kernel.nextSkb})
      {a with kernel := {a.kernel with nextSkb := a.kernel.nextSkb + 1}} := ⟨open_queue.index,open_queue.opening⟩
    exact takes_once before valid renamed meets takes

theorem delivered_once (run : Runs random (fun e s => Fresh e.jiffies e.packet s.view) s) :
    (handed s.kernel.log).Nodup := by
  obtain ⟨a,represents,_,once⟩ := runs_keep Once ⟨List.nodup_nil,fun _ none_yet => (nomatch none_yet)⟩
    (fun e s a b represents valid once fits fresh receives => receives_once once valid fits
      (by rw [← represents_view represents]; exact fresh) receives) run
  rw [represents.kernel]
  exact once.nodup

theorem delivered_once_sample :
    ∃ s, sampleRun [sampleFrame [0x09,7,0,5],sampleFrame [0x09,7,4,6]] = some s ∧ (handed s.kernel.log).Nodup := by
  have fits : (sampleFrame [0x09,7,0,5]).Fits := fun _ => ⟨by decide,by decide⟩
  have fits' : (sampleFrame [0x09,7,4,6]).Fits := fun _ => ⟨by decide,by decide⟩
  have begun : Runs (fun _ => 0) (fun e s => Fresh e.jiffies e.packet s.view) sampleStart := .start
  refine ⟨_,rfl,delivered_once (.step (.step begun fits (fun _ => ⟨?_,?_⟩) rfl) fits' (fun _ => ⟨?_,?_⟩) rfl)⟩
  · intro _ _ p waiting
    cases waiting
  · intro _ _ i member
    cases member
  · intro _ _ p waiting
    obtain rfl := List.mem_singleton.mp waiting
    decide
  · intro _ old
    exact absurd (old _ (.head _) rfl) (by decide)

theorem delivered_twice : ∃ s, Reached (fun _ => 0) s ∧ ¬(handed s.kernel.log).Nodup := by
  have fits : (sampleFrame [0x09,7,0,5]).Fits := fun _ => ⟨by decide,by decide⟩
  have begun : Reached (fun _ => 0) sampleStart := .start
  refine ⟨_,.step (.step begun fits rfl) fits rfl,?_⟩
  have twice : ¬[((7 : UInt8),0),(7,0)].Nodup := by decide
  exact twice

end Mac80211.MncRx

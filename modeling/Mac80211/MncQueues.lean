import Mac80211.MncRx

namespace Mac80211.MncRx
open LinkedList

-- The receiver without its pointers: the queues in the order of the list.
structure Queues where
  queues : List MncQueue
  lastDid : Vector UInt8 3
  kernel : Kernel

def State.view (s : State) : Queues := ⟨s.list.vals (),s.lastDid,s.kernel⟩

def Queues.start (random : Nat → UInt8) : Queues := ⟨[],Vector.replicate 3 0,⟨0,random,0,[]⟩⟩

def Queues.expire (now : UInt64) (a : Queues) : Queues := {a with
  queues := a.queues.filter fun q => !expired now q
  kernel := skbQueuePurge ((a.queues.filter (expired now)).flatMap (·.skbs)) a.kernel}

inductive Opens (now : UInt64) (eid kp : UInt8) : List MncQueue → List MncQueue → MncQueue → List MncQueue → Prop where
  | found (others : ∀ r ∈ before, r.eid ≠ eid) (same : q.eid = eid) :
      Opens now eid kp (before ++ q :: after) before q after
  | created (others : ∀ r ∈ queues, r.eid ≠ eid) : Opens now eid kp queues queues ⟨eid,now,kp,true,[]⟩ []

def openedQueue (queues : List MncQueue) (now : UInt64) (eid kp : UInt8) : MncQueue :=
  (queues.find? fun q => !expired now q && q.eid == eid).getD ⟨eid,now,kp,true,[]⟩

theorem opens_opened (opens : Opens now eid kp (queues.filter fun q => !expired now q) before q after) :
    q = openedQueue queues now eid kp := by
  have search : (queues.filter fun q => !expired now q).find? (fun q => q.eid == eid) =
      queues.find? fun q => !expired now q && q.eid == eid := by
    rw [List.find?_filter]
    congr 1
    funext q
    rw [Bool.eq_iff_iff]
    simp
  rw [openedQueue,← search]
  generalize queues.filter (fun q => !expired now q) = kept at opens
  cases opens with
  | found others same =>
    have here : (before ++ q :: after).find? (fun q => q.eid == eid) = some q :=
      List.find?_eq_some_iff_append.mpr ⟨by simp [same],before,after,rfl,fun r member => by simp [others r member]⟩
    rw [here,Option.getD_some]
  | created others =>
    have missing : before.find? (fun q => q.eid == eid) = none :=
      List.find?_eq_none.mpr fun r member => by simp [others r member]
    rw [missing,Option.getD_none]

-- Both kernels are after the expired queues were freed.
structure Accepts (now : UInt64) (skb : Skb) (a : Queues) (before : List MncQueue) (q : MncQueue)
    (after : List MncQueue) (filled : MncQueue) (kernel : Kernel) : Prop where
  fresh : skb.byte 1 ∉ a.lastDid.toList
  opens : Opens now (skb.byte 1) (skb.byte 0) (a.expire now).queues before q after
  kp : q.kp = skb.byte 0
  queued : queuePacket skb q (a.expire now).kernel = (filled,kernel)

inductive Takes (par : TrParam) (now : UInt64) (skb : Skb) (a : Queues) : Queues → Prop where
  | closed (old : skb.byte 1 ∈ a.lastDid.toList) :
      Takes par now skb a {a.expire now with kernel := kfreeSkb (some skb) (a.expire now).kernel}
  | wrongKp (fresh : skb.byte 1 ∉ a.lastDid.toList)
      (opens : Opens now (skb.byte 1) (skb.byte 0) (a.expire now).queues before q after) (other : q.kp ≠ skb.byte 0) :
      Takes par now skb a ⟨before ++ q :: after,a.lastDid,kfreeSkb (some skb) (a.expire now).kernel⟩
  | waiting (accepts : Accepts now skb a before q after filled kernel)
      (short : filled.skbs.length ≠ (skb.byte 0 >>> 2).toNat) :
      Takes par now skb a ⟨before ++ filled :: after,a.lastDid,kernel⟩
  | systematic (accepts : Accepts now skb a before q after filled kernel)
      (full : filled.skbs.length = (skb.byte 0 >>> 2).toNat) (sys : filled.sys = true) :
      Takes par now skb a ⟨before ++ after,pushDid (skb.byte 1) a.lastDid,skbQueuePurge filled.skbs kernel⟩
  | failed (accepts : Accepts now skb a before q after filled kernel)
      (full : filled.skbs.length = (skb.byte 0 >>> 2).toNat) (sys : filled.sys = false)
      (ran : skbsDecoding filled.skbs (skb.byte 0) kernel = some d) (bad : d.ok = false) :
      Takes par now skb a ⟨before ++ ({filled with skbs := d.skbs} : MncQueue) :: after,a.lastDid,d.kernel⟩
  | decoded (accepts : Accepts now skb a before q after filled kernel)
      (full : filled.skbs.length = (skb.byte 0 >>> 2).toNat) (sys : filled.sys = false)
      (ran : skbsDecoding filled.skbs (skb.byte 0) kernel = some d) (ok : d.ok = true)
      (sent : relay par (d.newskbs.map Prod.snd) skb.dev (skb.byte 1) d.kernel = some relayed) :
      Takes par now skb a ⟨before ++ after,pushDid (skb.byte 1) a.lastDid,
        skbQueuePurge d.skbs (deliver (skb.byte 1) d.newskbs relayed)⟩

inductive Receives (e : Arrival) (a : Queues) : Queues → Prop where
  | other (skb : Skb) (buffer : skb = {e.skb with id := a.kernel.nextSkb})
      (kind : ethertype skb ≠ 0x0810 ∧ ethertype skb ≠ 0x0811) :
      Receives e a {a with kernel := netifReceiveSkb skb none {a.kernel with nextSkb := a.kernel.nextSkb + 1}}
  | control (skb : Skb) (buffer : skb = {e.skb with id := a.kernel.nextSkb}) (kind : ethertype skb = 0x0811) :
      Receives e a {a with kernel := Kernel.record {a.kernel with nextSkb := a.kernel.nextSkb + 1} (.control skb)}
  | mnc (skb : Skb) (buffer : skb = {e.skb with id := a.kernel.nextSkb}) (kind : ethertype skb = 0x0810)
      (takes : Takes e.par e.jiffies (stripEthertype skb)
        {a with kernel := {a.kernel with nextSkb := a.kernel.nextSkb + 1}} b) : Receives e a b

structure Represents (s : State) (a : Queues) : Prop where
  cells : ∃ cells, Linked s.list () cells ∧ cells.map Prod.snd = a.queues ∧ (s.i = false → cells = [])
  lastDid : s.lastDid = a.lastDid
  kernel : s.kernel = a.kernel

theorem represents_view (represents : Represents s a) : s.view = a := by
  obtain ⟨⟨_,linked,same,_⟩,lastDid,kernel⟩ := represents
  rw [State.view,linked.vals,same,lastDid,kernel]

theorem initial_represents (random : Nat → UInt8) : Represents (initial random) (Queues.start random) :=
  ⟨⟨[],Linked.empty rfl rfl,rfl,fun _ => rfl⟩,rfl,rfl⟩

theorem mncQueueFree_linked (linked : Linked list () (xs ++ (c,q) :: ys)) (kernel : Kernel) :
    ∃ after, mncQueueFree c list kernel = some (after,skbQueuePurge q.skbs kernel) ∧ Linked after () (xs ++ ys) := by
  obtain ⟨n,here,rfl,_⟩ := linked.node
  obtain ⟨t,unlinked,rest⟩ := linked.remove
  exact ⟨_,by simp only [mncQueueFree,here,unlinked],rest⟩

theorem skbQueuePurge_append (xs ys : List Skb) (kernel : Kernel) :
    skbQueuePurge (xs ++ ys) kernel = skbQueuePurge ys (skbQueuePurge xs kernel) :=
  List.foldl_append

theorem checkEtime_linked (now : UInt64) (fuel : Nat) (enough : rest.length ≤ fuel)
    (linked : Linked list () (kept ++ rest)) (kernel : Kernel) :
    ∃ after, mncQueueHeadCheckEtime now fuel (rest.head?.map Prod.fst) list kernel =
        some (after,skbQueuePurge ((rest.filter fun cell => expired now cell.2).flatMap (·.2.skbs)) kernel) ∧
      Linked after () (kept ++ rest.filter fun cell => !expired now cell.2) := by
  induction rest generalizing kept fuel list kernel with
  | nil =>
    refine ⟨list,?_,linked⟩
    cases fuel <;> rfl
  | cons cell rest ih =>
    obtain ⟨c,q⟩ := cell
    cases fuel with
    | zero => simp at enough
    | succ fuel =>
      obtain ⟨n,here,rfl,next⟩ := linked.node
      have shorter : rest.length ≤ fuel := by simpa using enough
      simp only [List.head?_cons,Option.map_some,mncQueueHeadCheckEtime,here,next]
      cases late : expired now n.val with
      | true =>
        obtain ⟨_,ran,linked⟩ := mncQueueFree_linked linked kernel
        obtain ⟨after,walked,final⟩ := ih fuel shorter linked (skbQueuePurge n.val.skbs kernel)
        refine ⟨after,?_,?_⟩
        · simp only [ran,if_true,walked]
          simp only [List.filter_cons,late,if_true,List.flatMap_cons,skbQueuePurge_append]
        · rw [List.filter_cons_of_neg (by simp [late])]
          exact final
      | false =>
        rw [List.append_cons] at linked
        obtain ⟨after,walked,final⟩ := ih fuel shorter linked kernel
        refine ⟨after,?_,?_⟩
        · rw [if_neg (by decide),walked,List.filter_cons_of_neg (by simp [late])]
        · rw [List.filter_cons_of_pos (by simp [late]),List.append_cons]
          exact final

theorem checkEtime_represents (represents : Represents s a) (now : UInt64) :
    ∃ cells after, (let list := if s.i then s.list else mncQueueHeadInit s.list
      mncQueueHeadCheckEtime now list.brk (list.heads ()).next list s.kernel) =
        some (after,(a.expire now).kernel) ∧ Linked after () cells ∧ cells.map Prod.snd = (a.expire now).queues := by
  obtain ⟨cells,linked,queues,fresh⟩ := represents.cells
  have ready : Linked (if s.i then s.list else mncQueueHeadInit s.list) () cells := by
    cases started : s.i with
    | true => exact linked
    | false =>
      rw [fresh started]
      exact Linked.empty rfl rfl
  dsimp only
  generalize (if s.i then s.list else mncQueueHeadInit s.list) = list at ready ⊢
  have whole : Linked list () ([] ++ cells) := ready
  obtain ⟨after,walked,final⟩ := checkEtime_linked now list.brk ready.length_le whole s.kernel
  have first : (list.heads ()).next = cells.head?.map Prod.fst := by
    obtain ⟨_,segment⟩ := ready.segment
    cases cells with
    | nil | cons => exact segment.1
  refine ⟨_,after,?_,final,?_⟩
  · rw [first,walked,represents.kernel]
    simp only [Queues.expire,← queues,List.filter_map,List.flatMap_map,Function.comp_def]
  · simp only [Queues.expire,← queues,List.filter_map,Function.comp_def,List.nil_append]

theorem openQueue_linked (linked : Linked list () cells) (now : UInt64) (eid kp : UInt8) :
    ∃ xs c q ys after, openQueue now eid kp list = some (c,after) ∧ Linked after () (xs ++ (c,q) :: ys) ∧
      Opens now eid kp (cells.map Prod.snd) (xs.map Prod.snd) q (ys.map Prod.snd) := by
  have found := linked.find fun q => q.eid == eid
  cases search : cells.find? fun cell => cell.2.eid == eid with
  | none =>
    obtain ⟨after,inserted,final⟩ := linked.insert ⟨eid,now,kp,true,[]⟩
    refine ⟨cells,list.brk,_,[],after,?_,final,.created ?_⟩
    · rw [search,Option.map_none] at found
      simp only [openQueue,mncQueueHeadFindEid,found]
      simp only [mncQueueCreate,mncQueueInsert]
      rw [show (list.alloc ⟨eid,now,kp,true,[]⟩ (some ())).1 = list.brk from rfl,inserted]
      rfl
    · intro r member
      obtain ⟨cell,here,rfl⟩ := List.mem_map.mp member
      simpa using List.find?_eq_none.mp search cell here
  | some cell =>
    obtain ⟨same,xs,ys,rfl,others⟩ := List.find?_eq_some_iff_append.mp search
    obtain ⟨c,q⟩ := cell
    refine ⟨xs,c,q,ys,list,?_,linked,?_⟩
    · rw [search,Option.map_some] at found
      simp only [openQueue,mncQueueHeadFindEid,found]
    · rw [List.map_append,List.map_cons]
      apply Opens.found
      · intro r member
        obtain ⟨cell,here,rfl⟩ := List.mem_map.mp member
        simpa using others cell here
      · simpa using same

inductive Admission (now : UInt64) (skb : Skb) (a : Queues) : Admitted → Prop where
  | closed (old : skb.byte 1 ∈ a.lastDid.toList)
      (after : Represents s {a.expire now with kernel := kfreeSkb (some skb) (a.expire now).kernel}) :
      Admission now skb a (.dropped s)
  | wrongKp (fresh : skb.byte 1 ∉ a.lastDid.toList)
      (opens : Opens now (skb.byte 1) (skb.byte 0) (a.expire now).queues before q after) (other : q.kp ≠ skb.byte 0)
      (after : Represents s ⟨before ++ q :: after,a.lastDid,kfreeSkb (some skb) (a.expire now).kernel⟩) :
      Admission now skb a (.dropped s)
  | queued (accepts : Accepts now skb a (xs.map Prod.snd) q (ys.map Prod.snd) filled s.kernel)
      (linked : Linked s.list () (xs ++ (c,filled) :: ys)) (started : s.i = true) (lastDid : s.lastDid = a.lastDid) :
      Admission now skb a (.queued c s)

theorem admit_returns (represents : Represents s a) (now : UInt64) (skb : Skb) :
    ∃ admitted, enqueue now skb s = some admitted ∧ Admission now skb a admitted := by
  obtain ⟨cells,_,walked,linked,queues⟩ := checkEtime_represents represents now
  unfold enqueue
  dsimp only at walked ⊢
  rw [walked,represents.lastDid]
  by_cases old : skb.byte 1 ∈ a.lastDid.toList
  · simp only [old,if_true]
    exact ⟨_,rfl,.closed old ⟨⟨cells,linked,queues,fun fresh => (nomatch fresh)⟩,rfl,rfl⟩⟩
  simp only [old,if_false]
  obtain ⟨_,c,q,_,_,ran,linked,opens⟩ := openQueue_linked linked now (skb.byte 1) (skb.byte 0)
  obtain ⟨n,here,rfl,_⟩ := linked.node
  rw [queues] at opens
  simp only [ran,here]
  by_cases other : skb.byte 0 ≠ n.val.kp
  · rw [if_pos other]
    refine ⟨_,rfl,.wrongKp old opens (Ne.symm other) ⟨⟨_,linked,?_,fun fresh => (nomatch fresh)⟩,rfl,rfl⟩⟩
    rw [List.map_append,List.map_cons]
  · rw [if_neg other]
    obtain ⟨_,written,linked⟩ := linked.setVal (queuePacket skb n.val (a.expire now).kernel).1
    simp only [written]
    exact ⟨_,rfl,.queued ⟨old,opens,(not_not.mp other).symm,rfl⟩ linked rfl rfl⟩

theorem complete_takes (accepts : Accepts now skb a (xs.map Prod.snd) q (ys.map Prod.snd) filled s.kernel)
    (linked : Linked s.list () (xs ++ (c,filled) :: ys)) (started : s.i = true) (lastDid : s.lastDid = a.lastDid)
    (ran : complete par skb.dev (skb.byte 1) (skb.byte 0) c s = some t) :
    ∃ b, Takes par now skb a b ∧ Represents t b := by
  obtain ⟨n,here,rfl,_⟩ := linked.node
  have busy : ∀ cells : List (Nat × MncQueue), s.i = false → cells = [] := by
    intro _ fresh
    rw [started] at fresh
    cases fresh
  unfold complete at ran
  simp only [here] at ran
  by_cases full : n.val.skbs.length = (skb.byte 0 >>> 2).toNat
  · rw [if_pos full] at ran
    cases sys : n.val.sys with
    | true =>
      obtain ⟨_,freed,rest⟩ := mncQueueFree_linked linked s.kernel
      rw [if_pos sys,freed] at ran
      cases ran
      exact ⟨_,.systematic accepts full sys,⟨_,rest,by rw [List.map_append],busy _⟩,by rw [lastDid],rfl⟩
    | false =>
      have not_sys : ¬n.val.sys = true := by simp [sys]
      rw [if_neg not_sys] at ran
      cases decoding : skbsDecoding n.val.skbs (skb.byte 0) s.kernel with
      | none => rw [decoding] at ran; cases ran
      | some d =>
        obtain ⟨_,written,linked⟩ := linked.setVal {n.val with skbs := d.skbs}
        simp only [decoding,written] at ran
        cases ok : d.ok with
        | false =>
          simp only [ok,Bool.false_eq_true,if_false] at ran
          cases ran
          refine ⟨_,.failed accepts full sys decoding ok,⟨_,linked,?_,busy _⟩,lastDid,rfl⟩
          rw [List.map_append,List.map_cons]
        | true =>
          simp only [ok,if_true] at ran
          cases sent : relay par (d.newskbs.map Prod.snd) skb.dev (skb.byte 1) d.kernel with
          | none => rw [sent] at ran; cases ran
          | some relayed =>
            obtain ⟨_,freed,rest⟩ := mncQueueFree_linked linked (deliver (skb.byte 1) d.newskbs relayed)
            simp only [sent,freed,Option.map_some] at ran
            cases ran
            exact ⟨_,.decoded accepts full sys decoding ok sent,⟨_,rest,by rw [List.map_append],busy _⟩,by rw [lastDid],rfl⟩
  · rw [if_neg full] at ran
    cases ran
    refine ⟨_,.waiting accepts full,⟨_,linked,?_,busy _⟩,lastDid,rfl⟩
    rw [List.map_append,List.map_cons]

theorem receive_receives (represents : Represents s a) (ran : receive e s = some t) :
    ∃ b, Receives e a b ∧ Represents t b := by
  obtain ⟨cells,lastDid,kernel⟩ := represents
  unfold receive decodingTry at ran
  rw [kernel] at ran
  by_cases other : ethertype {e.skb with id := a.kernel.nextSkb} ≠ 0x0810 ∧ ethertype {e.skb with id := a.kernel.nextSkb} ≠ 0x0811
  · rw [if_pos other] at ran
    cases ran
    exact ⟨_,.other _ rfl other,cells,lastDid,rfl⟩
  rw [if_neg other] at ran
  by_cases control : ethertype {e.skb with id := a.kernel.nextSkb} = 0x0811
  · rw [if_pos control] at ran
    cases ran
    exact ⟨_,.control _ rfl control,cells,lastDid,rfl⟩
  rw [if_neg control] at ran
  have kind : ethertype {e.skb with id := a.kernel.nextSkb} = 0x0810 := by
    by_contra not_mnc
    exact other ⟨not_mnc,control⟩
  have represents : Represents {s with kernel := {a.kernel with nextSkb := a.kernel.nextSkb + 1}}
      {a with kernel := {a.kernel with nextSkb := a.kernel.nextSkb + 1}} := ⟨cells,lastDid,rfl⟩
  obtain ⟨_,admission,outcome⟩ := admit_returns represents e.jiffies (stripEthertype {e.skb with id := a.kernel.nextSkb})
  simp only [admission] at ran
  cases outcome with
  | closed old after =>
    cases ran
    exact ⟨_,.mnc _ rfl kind (.closed old),after⟩
  | wrongKp fresh opens wrong after =>
    cases ran
    exact ⟨_,.mnc _ rfl kind (.wrongKp fresh opens wrong),after⟩
  | queued accepts linked started same =>
    obtain ⟨b,takes,after⟩ := complete_takes accepts linked started same ran
    exact ⟨b,.mnc _ rfl kind takes,after⟩

end Mac80211.MncRx

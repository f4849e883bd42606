import Mac80211.TlRxSrc

namespace Mac80211.TlRxSrc
open Loops TlRx
open List (mem_append map_cons mem_map mem_singleton mem_append_right mem_cons map_append mem_append_left map_map prefix_rfl map_id mem_cons_self)

def Polled (log : List Fate) (since : Nat) (addr : EthAddr) : Prop :=
  ∃ wire ∈ transmitted (log.drop since), Headed wire addr .sendTF

theorem polled_grows (polled : Polled log n addr) (grows : log <+: after) : Polled after n addr := by
  obtain ⟨wire,sent,headed⟩ := polled
  obtain ⟨_,rfl⟩ := grows
  refine ⟨wire,?_,headed⟩
  rw [List.drop_append,transmitted_append]
  exact mem_append_left _ sent

theorem polled_now (bound : n ≤ log.length) (headed : Headed wire addr .sendTF) (dev : NetDevice) :
    Polled (log ++ [.sent wire dev]) n addr := by
  refine ⟨wire,?_,headed⟩
  rw [List.drop_append_of_le_length bound,transmitted_append]
  exact mem_append_right _ (List.mem_singleton_self _)

-- A node is only counted once done with polling, and only done when polled or below the threshold of
-- training frames.
structure Kept (thre : UInt32) (log : List Fate) (since : EthAddr → Nat) (next : Nat) (list : List TrInfo) : Prop where
  addrs : (list.map TrInfo.addr).Nodup
  ptrs : (list.map TrInfo.ptr).Nodup
  old : ∀ info ∈ list, info.ptr < next
  counted : ∀ info ∈ list, info.nrCnt = true → info.tfCnt = true
  polled : ∀ info ∈ list, info.tfCnt = true → firstRcv info.rcvNum < thre ∨ Polled log (since info.addr) info.addr

def Settled (list : List TrInfo) : Prop := ∀ info ∈ list, info.tfCnt = true → info.nrCnt = true

theorem kept_empty : Kept thre log since next [] :=
  ⟨List.nodup_nil,List.nodup_nil,fun _ member => (nomatch member),fun _ member => (nomatch member),fun _ member => (nomatch member)⟩

theorem kept_grows (kept : Kept thre log since next list) (grows : log <+: after) (more : next ≤ last) :
    Kept thre after since last list := by
  refine ⟨kept.addrs,kept.ptrs,fun info member => Nat.lt_of_lt_of_le (kept.old info member) more,kept.counted,?_⟩
  intro info member done
  rcases kept.polled info member done with below | polled
  · exact Or.inl below
  · exact Or.inr (polled_grows polled grows)

theorem mem_mid (member : other ∈ before ++ new :: after) :
    other = new ∨ other ∈ before ++ info :: after := by
  rcases mem_append.mp member with inside | inside
  · exact Or.inr (mem_append_left _ inside)
  · rcases mem_cons.mp inside with rfl | inside
    · exact Or.inl rfl
    · exact Or.inr (mem_append_right _ (List.mem_cons_of_mem _ inside))

theorem kept_mid (kept : Kept thre log since next (before ++ info :: after)) (addr : new.addr = info.addr)
    (ptr : new.ptr = info.ptr) (counted : new.nrCnt = true → new.tfCnt = true)
    (polled : new.tfCnt = true → firstRcv new.rcvNum < thre ∨ Polled log (since new.addr) new.addr) :
    Kept thre log since next (before ++ new :: after) := by
  refine ⟨?_,?_,?_,?_,?_⟩
  · have distinct := kept.addrs
    rw [map_append,map_cons] at distinct ⊢
    rwa [addr]
  · have distinct := kept.ptrs
    rw [map_append,map_cons] at distinct ⊢
    rwa [ptr]
  · intro other member
    rcases mem_mid member with rfl | inside
    · rw [ptr]
      exact kept.old info (mem_append_right _ mem_cons_self)
    · exact kept.old other inside
  · intro other member
    rcases mem_mid member with rfl | inside
    · exact counted
    · exact kept.counted other inside
  · intro other member
    rcases mem_mid member with rfl | inside
    · exact polled
    · exact kept.polled other inside

theorem settled_mid (others : Settled (before ++ after)) (done : info.tfCnt = true → info.nrCnt = true) :
    Settled (before ++ info :: after) := by
  intro other member
  rcases mem_append.mp member with inside | inside
  · exact others other (mem_append_left _ inside)
  · rcases mem_cons.mp inside with rfl | inside
    · exact done
    · exact others other (mem_append_right _ inside)

theorem settled_others (settled : Settled (before ++ info :: after)) : Settled (before ++ after) := by
  intro other member
  rcases mem_append.mp member with inside | inside
  · exact settled other (mem_append_left _ inside)
  · exact settled other (mem_append_right _ (List.mem_cons_of_mem _ inside))

def Same (f : TrInfo → TrInfo) : Prop := ∀ info, ∃ nbrs, f info = {info with nbrList := nbrs}

theorem same_refl : Same fun info => info := by
  intro info
  cases info
  exact ⟨_,rfl⟩

theorem delNbr_map (addr : EthAddr) (list : List TrInfo) : ∃ f, Same f ∧ trInfoListDelNbr addr list = list.map f := by
  refine ⟨_,fun info => ?_,rfl⟩
  split
  · exact same_refl info
  · exact ⟨_,rfl⟩

theorem arrangement_map (thre : UInt32) (list : List TrInfo) :
    ∃ f, Same f ∧ trInfoListArrangement thre list = list.map f := by
  have walked : ∀ rest after : List TrInfo, ∃ f, Same f ∧
      rest.foldl (fun after info => if firstRcv info.rcvNum ≥ thre then trInfoListDelNbr info.addr after else after) after =
        after.map f := by
    intro rest
    induction rest with
    | nil => exact fun after => ⟨fun info => info,same_refl,(map_id _).symm⟩
    | cons node rest ih =>
      intro after
      rw [List.foldl_cons]
      split
      · obtain ⟨g,first,here⟩ := delNbr_map node.addr after
        obtain ⟨f,later,walked⟩ := ih (trInfoListDelNbr node.addr after)
        refine ⟨fun info => f (g info),fun info => ?_,?_⟩
        · obtain ⟨_,one⟩ := first info
          obtain ⟨last,two⟩ := later (g info)
          exact ⟨last,two.trans (by rw [one])⟩
        · rw [walked,here,map_map]
          rfl
      · exact ih after
  exact walked list list

theorem kept_same (kept : Kept thre log since next list) (same : Same f) : Kept thre log since next (list.map f) := by
  have fields : ∀ info, (f info).addr = info.addr ∧ (f info).ptr = info.ptr ∧ (f info).rcvNum = info.rcvNum ∧
      (f info).tfCnt = info.tfCnt ∧ (f info).nrCnt = info.nrCnt := by
    intro info
    obtain ⟨_,eq⟩ := same info
    rw [eq]
    exact ⟨rfl,rfl,rfl,rfl,rfl⟩
  refine ⟨?_,?_,?_,?_,?_⟩
  · rw [map_map]
    have addrs : (TrInfo.addr ∘ f) = TrInfo.addr := funext fun info => (fields info).1
    rw [addrs]
    exact kept.addrs
  · rw [map_map]
    have ptrs : (TrInfo.ptr ∘ f) = TrInfo.ptr := funext fun info => (fields info).2.1
    rw [ptrs]
    exact kept.ptrs
  · intro info member
    obtain ⟨old,inside,rfl⟩ := mem_map.mp member
    rw [(fields old).2.1]
    exact kept.old old inside
  · intro _ member
    obtain ⟨old,inside,rfl⟩ := mem_map.mp member
    obtain ⟨_,_,_,tf,nr⟩ := fields old
    rw [tf,nr]
    exact kept.counted old inside
  · intro _ member
    obtain ⟨old,inside,rfl⟩ := mem_map.mp member
    obtain ⟨addr,_,rcv,tf,_⟩ := fields old
    rw [tf,rcv,addr]
    exact kept.polled old inside

theorem settled_same (settled : Settled list) (same : Same f) : Settled (list.map f) := by
  intro _ member
  obtain ⟨old,inside,rfl⟩ := mem_map.mp member
  obtain ⟨_,eq⟩ := same old
  rw [eq]
  exact settled old inside

structure Outstanding (s : State) (since : EthAddr → Nat) (before : List TrInfo) (info : TrInfo) (after : List TrInfo) :
    Prop where
  list : s.srcNbrList = before ++ info :: after
  sent : info.tfCnt = true
  waiting : info.nrCnt = false
  others : Settled (before ++ after)
  addr : info.addr = s.pollingAddr
  timer : s.tlRxSndtfTimer = some info.ptr
  polled : Polled s.kernel.log (since info.addr) info.addr

structure Inv (s : State) (since : EthAddr → Nat) : Prop where
  kept : Kept s.par.tfThre s.kernel.log since s.nextInfo s.srcNbrList
  bound : ∀ addr, since addr ≤ s.kernel.log.length
  init : s.forSrcInit = true → s.srcNbrList = [] ∧ s.tlRxTr1Timer = false
  idle : s.pollingState = false → s.tlRxSndtfTimer = none ∧ Settled s.srcNbrList ∧
    (s.tlRxTr1Timer = true → s.srcNbrList = [] ∨ ∃ info ∈ s.srcNbrList, info.tfCnt = false)
  polling : s.pollingState = true → s.tlRxTr1Timer = false ∧ ∃ before info after, Outstanding s since before info after

def Selected (thre : UInt32) (log : List Fate) (since : EthAddr → Nat) (sel : List TrInfo) : Prop :=
  ∀ info ∈ sel, info.nrCnt = true ∧ (firstRcv info.rcvNum < thre ∨ Polled log (since info.addr) info.addr)

def Proceeds (s t : State) (since : EthAddr → Nat) (addrs : List EthAddr) : Prop :=
  t.pollingState = true ∧ t.selections = s.selections ∨
    t.pollingState = false ∧ ∃ sel, t.selections = s.selections ++ [sel] ∧ sel.map TrInfo.addr = addrs ∧
      Selected s.par.tfThre s.kernel.log since sel

structure Walking (s : State) (since : EthAddr → Nat) (list : List TrInfo) : Prop where
  kept : Kept s.par.tfThre s.kernel.log since s.nextInfo list
  bound : ∀ addr, since addr ≤ s.kernel.log.length
  settled : Settled list
  started : s.forSrcInit = false
  tr1 : s.tlRxTr1Timer = false
  sndtf : s.tlRxSndtfTimer = none

theorem select_inv (walking : Walking s since list) (some_nodes : list ≠ []) (done : trInfoCheckNrCnt list = true) :
    Inv (tlSelectRelay {s with srcNbrList := list,pollingState := false}) since ∧
      Proceeds s (tlSelectRelay {s with srcNbrList := list,pollingState := false}) since (list.map TrInfo.addr) := by
  have counted : ∀ info ∈ list, info.nrCnt = true := by
    exact List.all_eq_true.mp done
  unfold tlSelectRelay
  cases list with
  | nil => exact absurd rfl some_nodes
  | cons first rest =>
    obtain ⟨f,same,arranged⟩ := arrangement_map s.par.tfThre (first :: rest)
    rw [arranged]
    refine ⟨⟨kept_same walking.kept same,walking.bound,?_,?_,?_⟩,?_⟩
    · exact fun init => absurd init (by simp [walking.started])
    · exact fun _ => ⟨walking.sndtf,settled_same walking.settled same,fun pending => absurd pending (by simp [walking.tr1])⟩
    · exact fun polling => (nomatch polling)
    · refine Or.inr ⟨rfl,_,rfl,rfl,fun info member => ⟨counted info member,?_⟩⟩
      exact walking.kept.polled info member (walking.kept.counted info member (counted info member))

def due (thre : UInt32) (info : TrInfo) : Bool := !info.tfCnt && decide (firstRcv info.rcvNum ≥ thre)

theorem sendTf_cases (room : Bool) (info : TrInfo) (s : State) : room = false ∧ sendTf room info s = (none,s.kernel) ∨
      ∃ sndtf, sendTf room info s = (some sndtf,{s.kernel with nextSkb := s.kernel.nextSkb + 1}) ∧ Headed sndtf info.addr .sendTF := by
  unfold sendTf
  rcases alloc_cases room info.dev info.addr info.dev.devAddr sndtfSize .sendTF s.kernel with ⟨full,failed⟩ | ⟨_,made,_,headed⟩
  · rw [failed]
    rcases full with full | short
    · exact Or.inl ⟨full,rfl⟩
    · exact absurd short (by decide)
  · rw [made]
    exact Or.inr ⟨_,rfl,headed.written (putU32_writes _ _ _) (by decide)⟩

-- A SendTF frame can go to it, or it is the last below the threshold.
def Finds (room : Nat → Bool) (thre : UInt32) (passed rest : List TrInfo) : Prop :=
  (∃ j, (rest.map (due thre))[j]? = some true ∧ room (passed.length + j) = true) ∨
    (∀ info ∈ passed, info.nrCnt = true) ∧ (∃ info ∈ rest, info.tfCnt = false) ∧ ∀ info ∈ rest, due thre info = false

theorem finds_next (finds : Finds room thre passed (info :: rest)) (undue : due thre info = false ∨ room passed.length = false)
    (length : after.length = passed.length + 1)
    (rest_open : (∀ info ∈ passed, info.nrCnt = true) → (∀ info ∈ rest, due thre info = false) → due thre info = false →
      (∃ node ∈ info :: rest, node.tfCnt = false) → (∀ info ∈ after, info.nrCnt = true) ∧ ∃ info ∈ rest, info.tfCnt = false) :
    Finds room thre after rest := by
  rcases finds with ⟨j,here,free⟩ | ⟨counted,unpolled,below⟩
  · cases j with
    | zero =>
      rw [map_cons,List.getElem?_cons_zero] at here
      rw [Nat.add_zero] at free
      rcases undue with undue | full
      · rw [undue] at here
        cases here
      · rw [full] at free
        cases free
    | succ j =>
      refine Or.inl ⟨j,?_,?_⟩
      · rwa [map_cons,List.getElem?_cons_succ] at here
      · rwa [length,Nat.add_assoc,Nat.add_comm 1 j]
  · have later : ∀ info ∈ rest, due thre info = false := fun info member => below info (List.mem_cons_of_mem _ member)
    obtain ⟨all,some⟩ := rest_open counted later (below info mem_cons_self) unpolled
    exact Or.inr ⟨all,some,later⟩

theorem settled_open (settled : Settled list) (more : ¬trInfoCheckNrCnt list = true) :
    ∃ info ∈ list, info.tfCnt = false ∧ info.nrCnt = false := by
  apply Classical.byContradiction
  intro none_open
  apply more
  apply List.all_eq_true.mpr
  intro info member
  cases sent : info.tfCnt with
  | true => exact settled info member sent
  | false =>
    cases counted : info.nrCnt with
    | true => rfl
    | false => exact absurd ⟨info,member,sent,counted⟩ none_open

theorem sent_inv (walking : Walking s since (passed ++ info :: rest)) (polling : s.pollingState = true)
    (headed : Headed sndtf info.addr .sendTF) (buffer : Nat) :
    Inv {s with
      srcNbrList := passed ++ {info with tfCnt := true,nrCnt := false} :: rest
      pollingAddr := info.addr
      tlRxSndtfTimer := some info.ptr
      kernel := devQueueXmit sndtf {s.kernel with nextSkb := buffer}} since := by
  have polled := polled_now (walking.bound info.addr) headed sndtf.dev
  have grown := kept_grows walking.kept (List.prefix_append s.kernel.log [.sent sndtf sndtf.dev]) (Nat.le_refl _)
  refine ⟨?_,fun addr => ?_,fun init => ?_,fun idle => ?_,fun _ => ?_⟩
  · exact kept_mid grown rfl rfl (fun counted => (nomatch counted)) fun _ => Or.inr polled
  · exact Nat.le_trans (walking.bound addr) (by simp [devQueueXmit,Kernel.record])
  · exact absurd init (by simp [walking.started])
  · exact absurd idle (by simp [polling])
  · refine ⟨walking.tr1,passed,_,rest,⟨rfl,rfl,rfl,settled_others walking.settled,rfl,rfl,?_⟩⟩
    exact polled

theorem poll_inv (rest : List TrInfo) (walking : Walking s since (passed ++ rest)) (polling : s.pollingState = true)
    (finds : Finds room s.par.tfThre passed rest) :
    Inv (poll room passed rest s) since ∧ Proceeds s (poll room passed rest s) since ((passed ++ rest).map TrInfo.addr) := by
  induction rest generalizing passed s with
  | nil =>
    rcases finds with ⟨j,here,_⟩ | ⟨_,⟨info,member,_⟩,_⟩
    · cases here
    · cases member
  | cons info rest ih =>
    have split_here : ∀ node : TrInfo, passed ++ node :: rest = (passed ++ [node]) ++ rest := fun node => by simp
    have length : ∀ node : TrInfo, (passed ++ [node]).length = passed.length + 1 := fun node => by simp
    have addrs : ∀ node : TrInfo, node.addr = info.addr →
        ((passed ++ [node]) ++ rest).map TrInfo.addr = (passed ++ info :: rest).map TrInfo.addr :=
      fun node same => by simp [same]
    unfold poll
    cases sent : info.tfCnt with
    | false =>
      rw [if_pos rfl]
      by_cases enough : firstRcv info.rcvNum ≥ s.par.tfThre
      · rw [if_pos enough]
        rcases sendTf_cases (room passed.length) info s with ⟨full,failed⟩ | ⟨sndtf,made,headed⟩
        · have isDue : due s.par.tfThre info = true := by simp [due,sent,enough]
          rw [failed,← addrs info rfl]
          rw [split_here] at walking
          refine ih walking polling (finds_next finds (Or.inr full) (length info) ?_)
          intro _ _ undue _
          rw [isDue] at undue
          cases undue
        · rw [made]
          exact ⟨sent_inv walking polling headed _,Or.inl ⟨polling,rfl⟩⟩
      rw [if_neg enough]
      -- The node is done without being polled.
      have below : firstRcv info.rcvNum < s.par.tfThre := Std.not_le.mp enough
      have undue : due s.par.tfThre info = false := by simp [due,sent,enough]
      have next : Walking s since (passed ++ {info with tfCnt := true,nrCnt := true} :: rest) :=
        ⟨kept_mid walking.kept rfl rfl (fun _ => rfl) fun _ => Or.inl below,walking.bound,
          settled_mid (settled_others walking.settled) fun _ => rfl,walking.started,walking.tr1,walking.sndtf⟩
      dsimp only
      rw [← addrs {info with tfCnt := true,nrCnt := true} rfl]
      split
      · next done =>
        rw [← split_here]
        exact select_inv next (by simp) done
      next more =>
      rw [split_here] at next
      refine ih next polling (finds_next finds (Or.inl undue) (length _) ?_)
      intro counted _ _ _
      refine ⟨fun other inside => ?_,?_⟩
      · rcases mem_append.mp inside with inside | last
        · exact counted other inside
        · rw [mem_singleton.mp last]
      · obtain ⟨node,member,unpolled,uncounted⟩ := settled_open next.settled (split_here _ ▸ more)
        rcases mem_append.mp member with inside | inside
        · rcases mem_append.mp inside with inside | last
          · rw [counted node inside] at uncounted
            cases uncounted
          · rw [mem_singleton.mp last] at unpolled
            cases unpolled
        · exact ⟨node,inside,unpolled⟩
    | true =>
      have undue : due s.par.tfThre info = false := by simp [due,sent]
      rw [if_neg (by decide),← addrs info rfl]
      rw [split_here] at walking
      refine ih walking polling (finds_next finds (Or.inl undue) (length info) ?_)
      rintro counted _ _ ⟨node,member,unpolled⟩
      refine ⟨fun other inside => ?_,?_⟩
      · rcases mem_append.mp inside with inside | last
        · exact counted other inside
        · rw [mem_singleton.mp last]
          exact walking.settled info (by simp) sent
      · rcases mem_cons.mp member with rfl | member
        · rw [sent] at unpolled
          cases unpolled
        · exact ⟨node,member,unpolled⟩

def Sends (room : Nat → Bool) (dues : List Bool) : Prop := true ∈ dues → ∃ j, dues[j]? = some true ∧ room j = true

theorem finds_start (sends : Sends room (list.map (due thre))) (unpolled : ∃ info ∈ list, info.tfCnt = false) :
    Finds room thre [] list := by
  by_cases some_due : true ∈ list.map (due thre)
  · obtain ⟨j,here,free⟩ := sends some_due
    exact Or.inl ⟨j,here,by simpa using free⟩
  · refine Or.inr ⟨fun _ member => (nomatch member),unpolled,fun info member => ?_⟩
    cases isDue : due thre info with
    | false => rfl
    | true => exact absurd (mem_map.mpr ⟨info,member,isDue⟩) some_due

theorem proceed_inv (walking : Walking s since s.srcNbrList) (some_nodes : s.srcNbrList ≠ [])
    (sends : Sends room (s.srcNbrList.map (due s.par.tfThre))) :
    Inv (proceed room s) since ∧ Proceeds s (proceed room s) since (s.srcNbrList.map TrInfo.addr) := by
  unfold proceed
  split
  · next done => exact select_inv walking some_nodes done
  · next more =>
    obtain ⟨node,member,unpolled,_⟩ := settled_open walking.settled more
    have again : Walking {s with pollingState := true} since ([] ++ s.srcNbrList) :=
      {walking with}
    exact poll_inv s.srcNbrList again rfl (finds_start sends ⟨node,member,unpolled⟩)

theorem update_mid (absent : info.addr ∉ before.map TrInfo.addr) (change : TrInfo → TrInfo) (after : List TrInfo) :
    trInfoUpdate info.addr change (before ++ info :: after) = before ++ change info :: after := by
  induction before with
  | nil => simp [trInfoUpdate]
  | cons first before ih =>
    rw [map_cons,mem_cons,not_or] at absent
    have other : ¬(first.addr == info.addr) = true := fun same => absent.1 (eq_of_beq same).symm
    rw [List.cons_append,trInfoUpdate,if_neg other,ih absent.2]
    rfl

theorem find_mid [BEq β] [LawfulBEq β] (key : TrInfo → β) (absent : key info ∉ before.map key) (after : List TrInfo) :
    (before ++ info :: after).find? (fun node => key node == key info) = some info := by
  induction before with
  | nil => simp
  | cons first before ih =>
    rw [map_cons,mem_cons,not_or] at absent
    have other : (key first == key info) = false := beq_false_of_ne fun same => absent.1 same.symm
    rw [List.cons_append,List.find?_cons,other]
    exact ih absent.2

theorem apart_mid {β : Type} (key : TrInfo → β) (distinct : ((before ++ info :: after).map key).Nodup) :
    key info ∉ before.map key ∧ key info ∉ after.map key := by
  rw [map_append,map_cons,List.nodup_middle,List.nodup_cons,mem_append,not_or] at distinct
  exact distinct.1

theorem mark_mid (distinct : ((before ++ info :: after).map TrInfo.ptr).Nodup) (change : TrInfo → TrInfo) :
    (before ++ info :: after).map (fun node => if node.ptr == info.ptr then change node else node) =
      before ++ change info :: after := by
  obtain ⟨left,right⟩ := apart_mid TrInfo.ptr distinct
  have kept : ∀ list : List TrInfo, info.ptr ∉ list.map TrInfo.ptr →
      list.map (fun node => if node.ptr == info.ptr then change node else node) = list := by
    intro _ absent
    refine (List.map_congr_left fun node member => ?_).trans (map_id _)
    refine if_neg fun same => absent ?_
    exact mem_map.mpr ⟨node,member,eq_of_beq same⟩
  rw [map_append,map_cons,kept before left,kept after right,if_pos BEq.rfl]

theorem inv_grows (inv : Inv s since) (grows : s.kernel.log <+: kernel.log) (pending : Bool) (trId lastId : UInt32) (mcs : UInt8) :
    Inv {s with tlMcsSendTimer := pending,trId := trId,lastTrId := lastId,mcs := mcs,kernel := kernel} since := by
  refine ⟨kept_grows inv.kept grows (Nat.le_refl _),fun addr => ?_,inv.init,inv.idle,fun polling => ?_⟩
  · exact Nat.le_trans (inv.bound addr) grows.length_le
  · obtain ⟨tr1,before,info,after,waits⟩ := inv.polling polling
    exact ⟨tr1,before,info,after,waits.list,waits.sent,waits.waiting,waits.others,waits.addr,waits.timer,
      polled_grows waits.polled grows⟩

theorem inv_kernel (inv : Inv s since) (grows : s.kernel.log <+: kernel.log) : Inv {s with kernel := kernel} since :=
  inv_grows inv grows s.tlMcsSendTimer s.trId s.lastTrId s.mcs

theorem prepare_eq (inv : Inv s since) : prepare s = {s with forSrcInit := false} := by
  unfold prepare
  split
  · next init =>
    obtain ⟨list,tr1⟩ := inv.init init
    rw [← list,← tr1]
  · next started =>
    have same : s.forSrcInit = false := Bool.not_eq_true _ ▸ started
    rw [← same]

theorem inv_started (inv : Inv s since) : Inv {s with forSrcInit := false} since := by
  refine ⟨inv.kept,inv.bound,fun init => (nomatch init),inv.idle,fun polling => ?_⟩
  obtain ⟨tr1,before,info,after,waits⟩ := inv.polling polling
  exact ⟨tr1,before,info,after,waits.list,waits.sent,waits.waiting,waits.others,waits.addr,waits.timer,waits.polled⟩

theorem outstanding_done (new : TrInfo) (inv : Inv s since) (polling : s.pollingState = true)
    (waits : Outstanding s since before info after) (addr : new.addr = info.addr) (ptr : new.ptr = info.ptr) (sent : new.tfCnt = true) (counted : new.nrCnt = true)
    (more : s.nextInfo ≤ next) :
    Walking {s with srcNbrList := before ++ new :: after,tlRxSndtfTimer := none,nextInfo := next} since
      (before ++ new :: after) := by
  have kept := inv.kept
  rw [waits.list] at kept
  refine ⟨?_,inv.bound,settled_mid waits.others fun _ => counted,?_,(inv.polling polling).1,rfl⟩
  · refine kept_grows (kept_mid kept addr ptr (fun _ => sent) fun _ => Or.inr ?_) prefix_rfl more
    rw [addr]
    exact waits.polled
  · cases started : s.forSrcInit with
    | false => rfl
    | true =>
      have empty := (inv.init started).1
      rw [waits.list] at empty
      exact absurd empty (by simp)

theorem dues_mid (sends : Sends room ((before ++ info :: after).map (due thre))) (old : info.tfCnt = true)
    (sent : new.tfCnt = true) : Sends room ((before ++ new :: after).map (due thre)) := by
  have undue : due thre info = due thre new := by simp [due,old,sent]
  rw [map_append,map_cons] at sends ⊢
  rwa [← undue]

-- Polling ends with a selection, and a relay is selected from all nodes, which are all done.
def Steps (s t : State) (since : EthAddr → Nat) : Prop :=
  t.selections = s.selections ∧ (s.pollingState = true → t.pollingState = true) ∨
    t.pollingState = false ∧ ∃ sel, t.selections = s.selections ++ [sel] ∧
      sel.map TrInfo.addr = s.srcNbrList.map TrInfo.addr ∧ Selected s.par.tfThre s.kernel.log since sel

theorem steps_proceeds (proceeds : Proceeds u t since addrs) (selections : u.selections = s.selections)
    (par : u.par.tfThre = s.par.tfThre) (log : u.kernel.log = s.kernel.log) (nodes : addrs = s.srcNbrList.map TrInfo.addr) :
    Steps s t since := by
  rcases proceeds with ⟨polling,same⟩ | ⟨idle,sel,more,here,_⟩
  · exact Or.inl ⟨same.trans selections,fun _ => polling⟩
  · refine Or.inr ⟨idle,sel,by rw [more,selections],here.trans nodes,?_⟩
    rwa [← par,← log]

theorem addNbrs_next (skb : Skb) (list : List TrInfo) (next : Nat) : next ≤ (addNbrs skb list next).2 := by
  refine forRange_keeps (fun nbrs : List TrInfo × Nat => next ≤ nbrs.2) (Nat.le_refl _) ?_
  intro i _ _ _ more
  unfold addNbr
  dsimp only
  split
  · exact Nat.le_succ_of_le more
  · exact more

theorem nbrRPT_inv (inv : Inv s since) (sends : Sends room (s.srcNbrList.map (due s.par.tfThre))) (skb : Skb) :
    Inv (nbrRPT room skb s) since ∧ Steps s (nbrRPT room skb s) since := by
  have ignored : Inv s since ∧ Steps s s since := ⟨inv,Or.inl ⟨rfl,id⟩⟩
  unfold nbrRPT
  split
  · exact ignored
  next polls =>
  have polling : s.pollingState = true := Bool.not_eq_false _ ▸ polls
  split
  · exact ignored
  next asked =>
  have sender : s.pollingAddr = saddr skb := not_not.mp asked
  obtain ⟨_,_,info,after,waits⟩ := inv.polling polling
  have distinct := inv.kept.addrs
  rw [waits.list] at distinct
  have here : saddr skb = info.addr := sender.symm.trans waits.addr.symm
  have absent := (apart_mid TrInfo.addr distinct).1
  have found : trInfoFindAddr s.srcNbrList (saddr skb) = some info := by
    rw [waits.list,here]
    exact find_mid TrInfo.addr absent after
  rw [found]
  dsimp only
  rw [if_pos waits.sent,waits.list,here,update_mid absent]
  rw [waits.list] at sends
  have walking := outstanding_done {info with nrCnt := true,nbrList := (addNbrs skb info.nbrList s.nextInfo).1} inv polling
    waits rfl rfl waits.sent rfl (addNbrs_next skb info.nbrList s.nextInfo)
  obtain ⟨after_inv,proceeds⟩ := proceed_inv walking (by simp) (dues_mid sends waits.sent waits.sent)
  refine ⟨after_inv,steps_proceeds proceeds rfl rfl rfl ?_⟩
  rw [waits.list]
  simp

theorem sndtf_inv (inv : Inv s since) (pending : s.tlRxSndtfTimer = some ptr)
    (sends : Sends room (s.srcNbrList.map (due s.par.tfThre)))
    (ran : tlRxSndtfTimerFunc room ptr {s with tlRxSndtfTimer := none} = some t) : Inv t since ∧ Steps s t since := by
  have polling : s.pollingState = true := by
    cases polls : s.pollingState with
    | true => rfl
    | false =>
      rw [(inv.idle polls).1] at pending
      cases pending
  obtain ⟨_,_,info,_,waits⟩ := inv.polling polling
  rw [waits.timer] at pending
  cases pending
  have distinct := inv.kept.ptrs
  rw [waits.list] at distinct
  unfold tlRxSndtfTimerFunc at ran
  rw [waits.list,find_mid TrInfo.ptr (apart_mid TrInfo.ptr distinct).1] at ran
  dsimp only at ran
  rw [if_neg (by simp [waits.sent]),mark_mid distinct] at ran
  cases ran
  rw [waits.list] at sends
  have walking := outstanding_done {info with nrCnt := true} inv polling waits rfl rfl waits.sent rfl (Nat.le_refl _)
  obtain ⟨after_inv,proceeds⟩ := proceed_inv walking (by simp) (dues_mid sends waits.sent waits.sent)
  refine ⟨after_inv,steps_proceeds proceeds rfl rfl rfl ?_⟩
  rw [waits.list]
  simp

theorem kept_since (kept : Kept thre log since next list)
    (same : ∀ info ∈ list, info.tfCnt = true → later info.addr = since info.addr) : Kept thre log later next list := by
  refine ⟨kept.addrs,kept.ptrs,kept.old,kept.counted,fun info member sent => ?_⟩
  rw [same info member sent]
  exact kept.polled info member sent

theorem kept_insert (kept : Kept thre log since next list) (missing : trInfoFindAddr list new.addr = none)
    (ptr : new.ptr = next) (fresh : new.tfCnt = false) (uncounted : new.nrCnt = false) :
    Kept thre log since (next + 1) (trInfoInsert new list) := by
  refine ⟨trInfoInsert_distinct kept.addrs missing,?_,?_,?_,?_⟩
  · rw [trInfoInsert,map_append,List.nodup_append]
    refine ⟨kept.ptrs,List.nodup_singleton _,?_⟩
    intro a member b last _
    obtain ⟨info,inside,rfl⟩ := mem_map.mp member
    rw [List.map_singleton,mem_singleton] at last
    have below := kept.old info inside
    omega
  · intro info member
    rcases mem_append.mp member with inside | last
    · exact Nat.lt_succ_of_lt (kept.old info inside)
    · rw [mem_singleton.mp last,ptr]
      exact Nat.lt_succ_self next
  · intro info member counted
    rcases mem_append.mp member with inside | last
    · exact kept.counted info inside counted
    · rw [mem_singleton.mp last,uncounted] at counted
      cases counted
  · intro info member sent
    rcases mem_append.mp member with inside | last
    · exact kept.polled info inside sent
    · rw [mem_singleton.mp last,fresh] at sent
      cases sent

theorem typeOneTR_inv (inv : Inv s since) (started : s.forSrcInit = false) (idle : s.pollingState = false)
    (same : ∀ addr, addr ≠ saddr skb → later addr = since addr) (bound : ∀ addr, later addr ≤ s.kernel.log.length) :
    Inv (typeOneTR skb s) later := by
  obtain ⟨sndtf,settled,_⟩ := inv.idle idle
  unfold typeOneTR
  dsimp only
  cases search : trInfoFindAddr s.srcNbrList (saddr skb) with
  | none =>
    have others : ∀ info ∈ s.srcNbrList, later info.addr = since info.addr := by
      intro info member
      refine same _ fun here => trInfoFindAddr_none search ?_
      rw [← here]
      exact List.mem_map_of_mem member
    have kept := kept_since inv.kept fun info member _ => others info member
    refine ⟨kept_insert kept search rfl rfl rfl,bound,fun init => ?_,fun _ => ⟨sndtf,?_,fun _ => Or.inr ?_⟩,fun polling => ?_⟩
    · exact absurd init (by simp [started])
    · intro info member sent
      rcases mem_append.mp member with inside | last
      · exact settled info inside sent
      · rw [mem_singleton.mp last] at sent
        cases sent
    · exact ⟨_,mem_append_right _ (List.mem_singleton_self _),rfl⟩
    · exact absurd polling (by simp [idle])
  | some info =>
    have here : info.addr = saddr skb := eq_of_beq (List.find?_some (p := fun node : TrInfo => node.addr == saddr skb) search)
    obtain ⟨_,_,list⟩ := List.append_of_mem (List.mem_of_find?_eq_some search)
    have kept := inv.kept
    rw [list] at kept settled
    obtain ⟨left,right⟩ := apart_mid TrInfo.addr kept.addrs
    rw [list,← here,update_mid left]
    refine ⟨kept_since (kept_mid kept rfl rfl (fun counted => (nomatch counted)) fun sent => (nomatch sent)) ?_,bound,
      fun init => ?_,fun _ => ⟨sndtf,settled_mid (settled_others settled) fun sent => (nomatch sent),fun _ => Or.inr ?_⟩,
      fun polling => ?_⟩
    · intro _ member sent
      rcases mem_append.mp member with inside | inside
      · refine same _ fun equal => left ?_
        rw [here,← equal]
        exact List.mem_map_of_mem inside
      · rcases mem_cons.mp inside with rfl | inside
        · cases sent
        · refine same _ fun equal => right ?_
          rw [here,← equal]
          exact List.mem_map_of_mem inside
    · exact absurd init (by simp [started])
    · exact ⟨_,mem_append_right _ mem_cons_self,rfl⟩
    · exact absurd polling (by simp [idle])

-- A buffer for a SendTF frame can be allocated, and the timer of the reports does not expire on an emptied
-- list.
def Regular (room : Nat → Bool) : Event → State → Prop
  | .start _,_ => True
  | .frame _,s => Sends room (s.srcNbrList.map (due s.par.tfThre))
  | .tr1Expires,s => s.srcNbrList ≠ [] ∧ Sends room (s.srcNbrList.map (due s.par.tfThre))
  | .sndtfExpires _,s => Sends room (s.srcNbrList.map (due s.par.tfThre))
  | .mcsExpires,_ => True

theorem heard_other (e : Event) (s : State) (since : EthAddr → Nat) (silent : e.reporter s = none) : heard e s since = since := by
  funext addr
  rw [heard,silent,if_neg (by simp)]

theorem heard_bound (e : Event) (inv : Inv s since) (addr : EthAddr) : heard e s since addr ≤ s.kernel.log.length := by
  unfold heard
  split
  · exact Nat.le_refl _
  · exact inv.bound addr

theorem frame_inv (inv : Inv s since) (sends : Sends room (s.srcNbrList.map (due s.par.tfThre))) (skb : Skb)
    (ran : step room (.frame skb) s = some t) : Inv t (heard (.frame skb) s since) ∧ Steps s t since := by
  have begun : Inv {s with kernel := {s.kernel with nextSkb := s.kernel.nextSkb + 1}} since := inv_kernel inv prefix_rfl
  have set_up := prepare_eq begun
  have ready := inv_started begun
  have freed : ∀ u : State, u.kernel.log <+: (kfreeSkb (some {skb with id := s.kernel.nextSkb}) u.kernel).log :=
    fun u => List.prefix_append _ _
  cases ran
  obtain ⟨u,eq,cases⟩ := receive_cases room {skb with id := s.kernel.nextSkb}
    {s with kernel := {s.kernel with nextSkb := s.kernel.nextSkb + 1}}
  rw [eq]
  rw [set_up] at cases
  rcases cases with ⟨rfl,other⟩ | ⟨rfl,accepted⟩ | ⟨rfl,kind⟩
  · have silent : Event.reporter (.frame skb) s = none := if_neg other
    rw [heard_other _ _ _ silent]
    exact ⟨inv_kernel ready (freed _),Or.inl ⟨rfl,fun polling => polling⟩⟩
  · have reporter : Event.reporter (.frame skb) s = some (saddr skb) := if_pos accepted
    have idle : s.pollingState = false := accepted.2.2
    have elsewhere : ∀ addr, addr ≠ saddr skb → heard (.frame skb) s since addr = since addr := by
      intro _ other
      rw [heard,reporter,if_neg fun same => other (Option.some.inj same).symm]
    refine ⟨inv_kernel (typeOneTR_inv ready rfl idle elsewhere (heard_bound _ inv)) (freed _),
      Or.inl ⟨?_,fun polling => absurd polling (by simp [idle])⟩⟩
    unfold typeOneTR
    split
    · rfl
    · rfl
  · have silent : Event.reporter (.frame skb) s = none := by
      refine if_neg fun accepted => ?_
      exact absurd (kind.symm.trans accepted.2.1) (by decide)
    rw [heard_other _ _ _ silent]
    obtain ⟨after_inv,steps⟩ := nbrRPT_inv ready sends {skb with id := s.kernel.nextSkb}
    exact ⟨inv_kernel after_inv (freed _),steps⟩

theorem tr1_inv (inv : Inv s since) (pending : s.tlRxTr1Timer = true) (some_nodes : s.srcNbrList ≠ [])
    (sends : Sends room (s.srcNbrList.map (due s.par.tfThre))) :
    Inv (tlRxTr1TimerFunc room {s with tlRxTr1Timer := false}) since ∧
      Steps s (tlRxTr1TimerFunc room {s with tlRxTr1Timer := false}) since := by
  have idle : s.pollingState = false := by
    cases polls : s.pollingState with
    | false => rfl
    | true =>
      rw [(inv.polling polls).1] at pending
      cases pending
  obtain ⟨sndtf,settled,unpolled⟩ := inv.idle idle
  have started : s.forSrcInit = false := by
    cases init : s.forSrcInit with
    | false => rfl
    | true => exact absurd (inv.init init).1 some_nodes
  have walking : Walking {s with tlRxTr1Timer := false,pollingState := true} since ([] ++ s.srcNbrList) :=
    ⟨inv.kept,inv.bound,settled,started,rfl,sndtf⟩
  have finds := finds_start sends ((unpolled pending).resolve_left some_nodes)
  obtain ⟨after_inv,proceeds⟩ := poll_inv s.srcNbrList walking rfl finds
  exact ⟨after_inv,steps_proceeds proceeds rfl rfl rfl rfl⟩

theorem start_inv (inv : Inv s since) (ran : step room (.start skb) s = some t) : Inv t since ∧ Steps s t since := by
  have begun : Inv {s with kernel := {s.kernel with nextSkb := s.kernel.nextSkb + 1}} since := inv_kernel inv prefix_rfl
  rcases start_cases ran with ⟨_,grows,rfl⟩ | ⟨idle,_,_,_,_,_,_,_,grows,rfl⟩
  · exact ⟨inv_kernel begun grows,Or.inl ⟨rfl,fun polling => polling⟩⟩
  · have idle : s.pollingState = false := idle
    refine ⟨⟨kept_empty,fun addr => Nat.le_trans (inv.bound addr) grows.length_le,fun init => ⟨rfl,(inv.init init).2⟩,?_,?_⟩,
      Or.inl ⟨rfl,fun polling => absurd polling (by simp [idle])⟩⟩
    · exact fun _ => ⟨(inv.idle idle).1,fun _ member => (nomatch member),fun _ => Or.inl rfl⟩
    · exact fun polling => absurd polling (by simp [idle])

theorem step_inv (inv : Inv s since) (occurs : e.Occurs s) (ok : Regular room e s) (ran : step room e s = some t) :
    Inv t (heard e s since) ∧ Steps s t since := by
  cases e with
  | start =>
    exact start_inv inv ran
  | frame skb => exact frame_inv inv ok skb ran
  | tr1Expires =>
    cases ran
    exact tr1_inv inv occurs ok.1 ok.2
  | sndtfExpires =>
    exact sndtf_inv inv occurs ok ran
  | mcsExpires =>
    obtain ⟨pending,trId,lastId,mcs,_,grows,rfl⟩ := mcs_cases ran
    exact ⟨inv_grows inv grows pending trId lastId mcs,Or.inl ⟨rfl,fun polling => polling⟩⟩

theorem reached_inv (reached : Runs random Regular s since) : Inv s since := by
  induction reached with
  | start =>
    refine ⟨kept_empty,fun _ => Nat.le_refl _,fun _ => ⟨rfl,rfl⟩,fun _ => ⟨rfl,?_,fun _ => Or.inl rfl⟩,fun polling => ?_⟩
    · exact fun _ member => (nomatch member)
    · cases polling
  | step prior occurs ok ran ih => exact (step_inv ih occurs ok ran).1

theorem source_polling (reached : Runs random Regular s since) :
    (s.pollingState = true → ∃ info, s.srcNbrList.filter (fun info => info.tfCnt && !info.nrCnt) = [info] ∧
      info.addr = s.pollingAddr ∧ s.tlRxSndtfTimer = some info.ptr ∧ Polled s.kernel.log (since info.addr) info.addr) ∧
    ∀ room e t, e.Occurs s → Regular room e s → step room e s = some t →
      (s.pollingState = true → t.pollingState = false → t.selections ≠ s.selections) ∧
      ∀ sel, t.selections = s.selections ++ [sel] → t.pollingState = false ∧
        sel.map TrInfo.addr = s.srcNbrList.map TrInfo.addr ∧
        ∀ info ∈ sel, info.nrCnt = true ∧ (firstRcv info.rcvNum < s.par.tfThre ∨ Polled s.kernel.log (since info.addr) info.addr) := by
  have inv := reached_inv reached
  refine ⟨fun polling => ?_,fun room e t occurs ok ran => ?_⟩
  · obtain ⟨_,before,info,after,waits⟩ := inv.polling polling
    refine ⟨info,?_,waits.addr,waits.timer,waits.polled⟩
    have nobody : ∀ list : List TrInfo, Settled list → list.filter (fun info => info.tfCnt && !info.nrCnt) = [] := by
      intro list settled
      refine List.filter_eq_nil_iff.mpr fun node member open_node => ?_
      rw [Bool.and_eq_true,Bool.not_eq_true'] at open_node
      rw [settled node member open_node.1] at open_node
      cases open_node.2
    have left := nobody before fun node member => waits.others node (mem_append_left _ member)
    have right := nobody after fun node member => waits.others node (mem_append_right _ member)
    rw [waits.list,List.filter_append,List.filter_cons,left,right]
    simp [waits.sent,waits.waiting]
  rcases (step_inv inv occurs ok ran).2 with ⟨same,on⟩ | ⟨idle,sel,more,addrs,selected⟩
  · refine ⟨fun polling ended => ?_,fun sel more => ?_⟩
    · rw [on polling] at ended
      cases ended
    · rw [same] at more
      exact absurd (congrArg List.length more) (by simp)
  · refine ⟨fun _ _ same => ?_,fun other last => ?_⟩
    · rw [more] at same
      exact absurd (congrArg List.length same) (by simp)
    · rw [more] at last
      cases List.append_cancel_left last
      exact ⟨idle,addrs,selected⟩

namespace PollingSample
open TlRx.Sample

def starting : Event := .start ⟨0,fun a => if a = 62 then 1 else 0,0,64,0,0,0,0x0800,0,dev,0⟩
def report (rcv : UInt8) : Event := .frame (frame source ([3,0,0,0,0,0,rcv] ++ List.replicate 28 0))
def begin : State := initial fun _ => 0
def started : State := (step room starting begin).getD begin
def reported (rcv : UInt8) : State := (step room (report rcv) started).getD started
def expired (rcv : UInt8) : State := (step room .tr1Expires (reported rcv)).getD (reported rcv)

theorem started_reached : Runs (fun _ => 0) Regular started (heard starting begin fun _ => 0) :=
  .step (e := starting) .start trivial trivial (show step room starting begin = some started from rfl)

theorem reported_reached (rcv : UInt8) :
    Runs (fun _ => 0) Regular (reported rcv) (heard (report rcv) started (heard starting begin fun _ => 0)) :=
  .step (e := report rcv) started_reached trivial (fun due => (nomatch due))
    (show step room (report rcv) started = some (reported rcv) from rfl)

end PollingSample

-- A node below the threshold is never polled.
theorem selection_unpolled : ∃ s since t sel info, Runs (fun _ => 0) Regular s since ∧
    step Sample.room .tr1Expires s = some t ∧ t.selections = s.selections ++ [sel] ∧ info ∈ sel ∧
    ¬∃ wire ∈ transmitted t.kernel.log, Headed wire info.addr .sendTF := by
  refine ⟨_,_,PollingSample.expired 0,_,_,PollingSample.reported_reached 0,rfl,rfl,List.mem_singleton_self _,?_⟩
  rintro ⟨_,sent,_⟩
  cases sent

theorem source_polling_sample : (PollingSample.expired 1).pollingState = true ∧
    ∃ info, (PollingSample.expired 1).srcNbrList.filter (fun info => info.tfCnt && !info.nrCnt) = [info] ∧
      info.addr = (PollingSample.expired 1).pollingAddr ∧ (PollingSample.expired 1).tlRxSndtfTimer = some info.ptr ∧
      ∃ since, Polled (PollingSample.expired 1).kernel.log since info.addr := by
  have reached : Runs (fun _ => 0) Regular (PollingSample.expired 1) _ :=
    .step (e := .tr1Expires) (PollingSample.reported_reached 1) rfl ⟨fun empty => (nomatch empty),fun _ => ⟨0,rfl,rfl⟩⟩
      (show step Sample.room .tr1Expires (PollingSample.reported 1) = some (PollingSample.expired 1) from rfl)
  obtain ⟨info,waits,addr,timer,polled⟩ := (source_polling reached).1 rfl
  exact ⟨rfl,info,waits,addr,timer,_,polled⟩

end Mac80211.TlRxSrc

import Mac80211.LinkedLists
import Mac80211.TlRx

namespace Mac80211.TlRxList
open LinkedList
open Function (update update_eq_self update_idem update_of_ne update_self)
open Option (bind_some map_some)

-- src_nbr_list of the source, tr2_list of the destination and the nbr_list of each record, named by its
-- address.
structure TrInfo where
  addr : EthAddr
  dev : NetDevice
  totalNum : UInt32
  rcvNum : Vector UInt32 8
  rssi : UInt8
  batt : UInt8
  tfCnt : Bool
  nrCnt : Bool

inductive TrInfoList where
  | srcNbrList
  | tr2List
  | nbrList (info : Nat)
deriving DecidableEq

def TrInfoList.outer : TrInfoList → Bool
  | .nbrList _ => false
  | _ => true

abbrev Mem := Store TrInfoList TrInfo

def trInfoListInit (list : TrInfoList) (s : Mem) : Mem := {s with heads := update s.heads list ⟨none,0⟩}

def trInfoCreate (info : TrInfo) (s : Mem) : Nat × Mem :=
  ((s.alloc info none).1,trInfoListInit (.nbrList (s.alloc info none).1) (s.alloc info none).2)

mutual

-- Taken out of its list; what is in its own is freed with it. The fuel is for the recursion.
def trInfoFree : Nat → Nat → Mem → Option Mem
  | 0,_,_ => none
  | fuel + 1,info,s =>
    match s.nodes info with
    | none => none
    | some node =>
      match node.list with
      | none => (trInfoListPurge fuel (.nbrList info) s).map (Store.release info)
      | some head =>
        (s.unlink info).bind fun s => (trInfoListPurge fuel (.nbrList info) (s.setLen head (· - 1))).map (Store.release info)

def trInfoListPurge : Nat → TrInfoList → Mem → Option Mem
  | 0,_,_ => none
  | fuel + 1,list,s =>
    match (s.heads list).next with
    | none => some s
    | some info => (trInfoFree fuel info s).bind (trInfoListPurge fuel list)

end

def freeFuel (s : Mem) : Nat := 2 * s.brk + 6

def trInfoInsert (newinfo : Nat) (list : TrInfoList) (s : Mem) : Option Mem :=
  (s.nodes newinfo).bind fun node =>
    Store.append list newinfo {s with nodes := update s.nodes newinfo (some {node with list := some list})}

def trInfoFindAddr (list : TrInfoList) (addr : EthAddr) (s : Mem) : Option (Option Nat) :=
  s.find (fun info => info.addr == addr) s.brk (s.heads list).next

def modify (info : Nat) (change : TrInfo → TrInfo) (s : Mem) : Option Mem :=
  (s.nodes info).bind fun node => s.setVal info (change node.val)

def delNbrAt (addr : EthAddr) (info : Nat) (s : Mem) : Option Mem :=
  (s.nodes info).bind fun node =>
    if node.val.addr == addr then some s
    else (trInfoFindAddr (.nbrList info) addr s).bind fun
      | none => some s
      | some nbr => trInfoFree (freeFuel s) nbr s

def trInfoListDelNbr (list : TrInfoList) (addr : EthAddr) (s : Mem) : Option Mem :=
  s.each (delNbrAt addr) s.brk (s.heads list).next

def arrangeAt (list : TrInfoList) (tfThre : UInt32) (info : Nat) (s : Mem) : Option Mem :=
  (s.nodes info).bind fun node =>
    if firstRcv node.val.rcvNum ≥ tfThre then trInfoListDelNbr list node.val.addr s else some s

def trInfoListArrangement (list : TrInfoList) (tfThre : UInt32) (s : Mem) : Option Mem :=
  s.each (arrangeAt list tfThre) s.brk (s.heads list).next

-- At the list of its round: a new record, or one written over and its neighbours freed.
def report (list : TrInfoList) (info : TrInfo) (s : Mem) : Option Mem :=
  (trInfoFindAddr list info.addr s).bind fun
    | none => trInfoInsert (trInfoCreate info s).1 list (trInfoCreate info s).2
    | some old =>
      (modify old (fun kept => {info with addr := kept.addr,tfCnt := false,nrCnt := false}) s).bind fun s =>
        trInfoListPurge (freeFuel s) (.nbrList old) s

def reportNbr (list : TrInfoList) (info : TrInfo) (s : Mem) : Option Mem :=
  (trInfoFindAddr list info.addr s).bind fun
    | none => trInfoInsert (trInfoCreate info s).1 list (trInfoCreate info s).2
    | some old => modify old (fun kept => {info with addr := kept.addr,tfCnt := kept.tfCnt,nrCnt := kept.nrCnt}) s

-- Nothing is done if the address is not in the list or was not asked.
def nbrRpt (addr : EthAddr) (nbrs : List TrInfo) (s : Mem) : Option Mem :=
  (trInfoFindAddr .srcNbrList addr s).bind fun
    | none => some s
    | some info => (s.nodes info).bind fun node =>
      if node.val.tfCnt then
        (modify info (fun kept => {kept with nrCnt := true}) s).bind fun s =>
          nbrs.foldlM (fun s nbr => reportNbr (.nbrList info) nbr s) s
      else some s

def note (addr : EthAddr) (tfCnt nrCnt : Bool) (s : Mem) : Option Mem :=
  (trInfoFindAddr .srcNbrList addr s).bind fun
    | none => some s
    | some info => modify info (fun kept => {kept with tfCnt := tfCnt,nrCnt := nrCnt}) s

def drain : Nat → Mem → Option Mem
  | 0,s => some s
  | qlen + 1,s =>
    match (s.heads .tr2List).next with
    | none => some s
    | some info => (trInfoFree (freeFuel s) info s).bind (drain qlen)

-- The addresses in a list differ, and only the records of the two outer lists have neighbours.
structure Formed (s : Mem) (cells : TrInfoList → List (Nat × TrInfo)) : Prop where
  linked : AllLinked s cells
  apart : ∀ list, ((cells list).map fun cell => cell.2.addr).Nodup
  inside : ∀ info, cells (.nbrList info) ≠ [] → ∃ list, list.outer = true ∧ info ∈ (cells list).map Prod.fst

section lists
variable {cells : TrInfoList → List (Nat × TrInfo)} {list : TrInfoList}

theorem purge_empty (all : AllLinked s cells) (empty : cells list = []) (fuel : Nat) :
    trInfoListPurge (fuel + 1) list s = some s := by
  have head := all.head_empty empty
  simp only [trInfoListPurge,head]

theorem free_rule (fuel : Nat) (all : AllLinked s cells) (here : cells list = xs ++ (info,v) :: ys)
    (purged : ∀ u, AllLinked u (update cells list (xs ++ ys)) → u.brk = s.brk → ∃ t,
      trInfoListPurge fuel (.nbrList info) u = some t ∧
      AllLinked t (update (update cells list (xs ++ ys)) (.nbrList info) []) ∧ u.KeepsLoose t ∧ t.brk = u.brk) :
    ∃ t, trInfoFree (fuel + 1) info s = some t ∧
      AllLinked t (update (update cells list (xs ++ ys)) (.nbrList info) []) ∧ s.KeepsLoose t ∧ t.brk = s.brk := by
  have linked := all list
  rw [here] at linked
  obtain ⟨_,known,_,head,_,_⟩ := linked.links
  obtain ⟨u,ran,rest,kept,brk,gone⟩ := all.unlink here
  obtain ⟨t,emptied,linked,loose,same⟩ := purged (u.setLen list (· - 1)) rest brk
  refine ⟨t.release info,?_,?_,?_,same.trans brk⟩
  · simp only [trInfoFree,known,head,ran,bind_some,emptied,map_some]
  · apply linked.free
    intro k
    by_cases nbr : k = .nbrList info
    · subst nbr
      simp
    · rw [update_of_ne nbr]
      exact gone k
  have keeps := kept.trans loose
  refine ⟨keeps.brk,?_⟩
  intro a n old record free
  have other : a ≠ info := by
    intro same
    subst same
    rw [known] at record
    cases record
    rw [free] at head
    cases head
  exact (update_of_ne other _ _).trans (keeps.nodes a n old record free)

theorem update_empty (empty : cells list = []) : update cells list [] = cells := by
  rw [← empty]
  exact update_eq_self list cells

theorem free_leaf (all : AllLinked s cells) (here : cells list = xs ++ (info,v) :: ys) (leaf : cells (.nbrList info) = [])
    (fuel : Nat) :
    ∃ t, trInfoFree (fuel + 2) info s = some t ∧ AllLinked t (update cells list (xs ++ ys)) ∧ s.KeepsLoose t ∧
      t.brk = s.brk := by
  have other : .nbrList info ≠ list := by
    intro same
    rw [← same,leaf] at here
    cases xs with
    | nil | cons => cases here
  have still : update cells list (xs ++ ys) (.nbrList info) = [] := by rw [update_of_ne other,leaf]
  have freed := free_rule (fuel + 1) all here (fun u linked brk =>
    ⟨u,purge_empty linked still fuel,by rwa [update_empty still],Store.KeepsLoose.refl u,rfl⟩)
  rwa [update_empty still] at freed

theorem purge_leaves (fuel : Nat) (all : AllLinked s cells) (leaves : ∀ info ∈ (cells list).map Prod.fst, cells (.nbrList info) = [])
    (enough : (cells list).length + 3 ≤ fuel) :
    ∃ t, trInfoListPurge fuel list s = some t ∧ AllLinked t (update cells list []) ∧ s.KeepsLoose t ∧ t.brk = s.brk := by
  induction fuel generalizing s cells with
  | zero => omega
  | succ fuel ih =>
    cases here : cells list with
    | nil =>
      refine ⟨s,purge_empty all here fuel,?_,Store.KeepsLoose.refl s,rfl⟩
      rwa [update_empty here]
    | cons cell rest =>
      obtain ⟨info,v⟩ := cell
      have leaf := leaves info (by simp [here])
      have start := all.start list
      rw [here] at start enough
      simp only [List.length_cons] at enough
      obtain ⟨fuel,rfl⟩ : ∃ less, fuel = less + 2 := ⟨fuel - 2,by omega⟩
      have front : cells list = [] ++ (info,v) :: rest := here
      obtain ⟨t,freed,linked,loose,brk⟩ := free_leaf all front leaf fuel
      have shorter : ∀ info ∈ (update cells list rest list).map Prod.fst,update cells list rest (.nbrList info) = [] := by
        intro other member
        rw [update_self] at member
        have empty := leaves other (by rw [here]; exact List.mem_cons_of_mem _ member)
        have apart : .nbrList other ≠ list := by
          intro same
          rw [← same,empty] at here
          cases here
        rw [update_of_ne apart,empty]
      obtain ⟨u,emptied,all,kept,same⟩ := ih linked shorter (by rw [List.nil_append,update_self]; omega)
      refine ⟨u,?_,?_,loose.trans kept,same.trans brk⟩
      · simp only [trInfoListPurge,start,List.head?_cons,map_some,freed,bind_some]
        exact emptied
      · rwa [List.nil_append,update_idem] at all

theorem Formed.outer_or (formed : Formed s cells) (member : info ∈ (cells (.nbrList a)).map Prod.fst) :
    cells (.nbrList info) = [] := by
  by_contra full
  obtain ⟨_,outside,place⟩ := formed.inside info full
  cases formed.linked.owner place member
  cases outside

theorem Formed.loose_leaf (formed : Formed s cells) (known : s.nodes info = some node) (loose : node.list = none) :
    cells (.nbrList info) = [] := by
  by_contra full
  obtain ⟨outer,_,place⟩ := formed.inside info full
  exact formed.linked.loose known loose outer place

structure Stays (s : Mem) (cells : TrInfoList → List (Nat × TrInfo)) (list : TrInfoList) (t : Mem)
    (after : TrInfoList → List (Nat × TrInfo)) : Prop where
  formed : Formed t after
  loose : s.KeepsLoose t
  others : ∀ other, other.outer = true → other ≠ list → after other = cells other

theorem Stays.refl (formed : Formed s cells) (list : TrInfoList) : Stays s cells list s cells :=
  ⟨formed,Store.KeepsLoose.refl s,fun _ _ _ => rfl⟩

theorem Stays.trans (first : Stays s cells list t after)
    (second : Stays t after list u final) : Stays s cells list u final :=
  ⟨second.formed,first.loose.trans second.loose,fun other outside apart =>
    (second.others other outside apart).trans (first.others other outside apart)⟩

theorem Stays.nested (stays : Stays s cells (.nbrList info) t after) (list : TrInfoList) : Stays s cells list t after := by
  refine ⟨stays.formed,stays.loose,?_⟩
  intro other outside _
  apply stays.others other outside
  intro same
  rw [same] at outside
  cases outside

theorem drop_apart (formed : Formed s cells) (here : cells list = xs ++ (info,v) :: ys) (k : TrInfoList) :
    ((update (update cells list (xs ++ ys)) (.nbrList info) [] k).map fun cell => cell.2.addr).Nodup := by
  by_cases own : k = .nbrList info
  · subst own
    simp
  rw [update_of_ne own]
  by_cases same : k = list
  · subst same
    have apart := formed.apart k
    rw [here] at apart
    rw [update_self]
    have shorter : List.Sublist (xs ++ ys) (xs ++ (info,v) :: ys) := (List.sublist_cons_self _ _).append_left xs
    exact apart.sublist (shorter.map _)
  · rw [update_of_ne same]
    exact formed.apart k

theorem drop_others (other : TrInfoList) (outside : other.outer = true) (apart : other ≠ list) :
    update (update cells list (xs ++ ys)) (.nbrList info) [] other = cells other := by
  have outer : other ≠ .nbrList info := by
    intro same
    rw [same] at outside
    cases outside
  rw [update_of_ne outer,update_of_ne apart]

theorem drop_inside (formed : Formed s cells) (here : cells list = xs ++ (info,v) :: ys) (a : Nat)
    (full : update (update cells list (xs ++ ys)) (.nbrList info) [] (.nbrList a) ≠ []) :
    ∃ k, k.outer = true ∧ a ∈ (update (update cells list (xs ++ ys)) (.nbrList info) [] k).map Prod.fst := by
  have other : a ≠ info := by
    intro same
    subst same
    simp at full
  have some_nbr : cells (.nbrList a) ≠ [] := by
    have own : TrInfoList.nbrList a ≠ .nbrList info := fun same => other (TrInfoList.nbrList.inj same)
    rw [update_of_ne own] at full
    by_cases same : .nbrList a = list
    · rw [same,here]
      simp
    · rwa [update_of_ne same] at full
  obtain ⟨k,outside,member⟩ := formed.inside a some_nbr
  refine ⟨k,outside,?_⟩
  by_cases same : k = list
  · subst same
    have outer : k ≠ .nbrList info := by
      intro same
      rw [same] at outside
      cases outside
    rw [update_of_ne outer,update_self]
    rw [here,List.map_append,List.map_cons] at member
    rw [List.map_append]
    rcases List.mem_append.mp member with left | right
    · exact List.mem_append_left _ left
    · exact List.mem_append_right _ (List.mem_of_ne_of_mem other right)
  · rwa [drop_others k outside same]

theorem free_formed (formed : Formed s cells) (here : cells list = xs ++ (info,v) :: ys)
    (enough : (cells (.nbrList info)).length + 4 ≤ fuel) :
    ∃ t after, trInfoFree fuel info s = some t ∧ Stays s cells list t after ∧ after list = xs ++ ys ∧ t.brk = s.brk := by
  have member : info ∈ (cells list).map Prod.fst := by simp [here]
  have leaves : ∀ a ∈ (cells (.nbrList info)).map Prod.fst, cells (.nbrList a) = [] := fun a place => formed.outer_or place
  have other : .nbrList info ≠ list := by
    intro same
    have empty := leaves info (same ▸ member)
    rw [← same,empty] at here
    cases xs with
    | nil | cons => cases here
  obtain ⟨fuel,rfl⟩ : ∃ less, fuel = less + 1 := ⟨fuel - 1,by omega⟩
  obtain ⟨t,freed,linked,loose,brk⟩ := free_rule fuel formed.linked here (by
    intro u linked brk
    have still : update cells list (xs ++ ys) (.nbrList info) = cells (.nbrList info) := update_of_ne other _ _
    apply purge_leaves fuel linked
    · intro a place
      rw [still] at place
      have leaf := leaves a place
      by_cases same : .nbrList a = list
      · rw [← same,leaf] at here
        cases xs with
        | nil | cons => cases here
      · rw [update_of_ne same,leaf]
    · rw [still]
      omega)
  exact ⟨t,_,freed,⟨⟨linked,drop_apart formed here,drop_inside formed here⟩,loose,drop_others⟩,
    by rw [update_of_ne other.symm,update_self],brk⟩

theorem purge_formed (fuel : Nat) (formed : Formed s cells) (list : TrInfoList) (enough : (cells list).length + s.brk + 5 ≤ fuel) :
    ∃ t after, trInfoListPurge fuel list s = some t ∧ Stays s cells list t after ∧ after list = [] := by
  induction fuel generalizing s cells with
  | zero => omega
  | succ fuel ih =>
    cases here : cells list with
    | nil => exact ⟨s,cells,purge_empty formed.linked here fuel,Stays.refl formed list,here⟩
    | cons cell rest =>
      obtain ⟨info,v⟩ := cell
      have start := formed.linked.start list
      rw [here] at start enough
      simp only [List.length_cons] at enough
      have bound := (formed.linked (.nbrList info)).length_le
      have front : cells list = [] ++ (info,v) :: rest := here
      have room : (cells (.nbrList info)).length + 4 ≤ fuel := by omega
      obtain ⟨t,_,freed,stays,left,brk⟩ := free_formed formed front room
      rw [List.nil_append] at left
      obtain ⟨u,after,emptied,gone,empty⟩ := ih stays.formed (by rw [left,brk]; omega)
      refine ⟨u,after,?_,stays.trans gone,empty⟩
      simp only [trInfoListPurge,start,List.head?_cons,map_some,freed,bind_some]
      exact emptied

section
variable (formed : Formed s cells)
include formed

theorem purge_enough (list : TrInfoList) :
    ∃ t after, trInfoListPurge (freeFuel s) list s = some t ∧ Stays s cells list t after ∧ after list = [] := by
  apply purge_formed (freeFuel s) formed list
  have bound := (formed.linked list).length_le
  unfold freeFuel
  omega

theorem free_enough (here : cells list = xs ++ (info,v) :: ys) :
    ∃ t after, trInfoFree (freeFuel s) info s = some t ∧ Stays s cells list t after ∧ after list = xs ++ ys ∧ t.brk = s.brk := by
  apply free_formed formed here
  have bound := (formed.linked (.nbrList info)).length_le
  unfold freeFuel
  omega

theorem find_cases (list : TrInfoList) (addr : EthAddr) :
    trInfoFindAddr list addr s = some none ∧ (∀ cell ∈ cells list, cell.2.addr ≠ addr) ∨
      ∃ info v xs ys, trInfoFindAddr list addr s = some (some info) ∧ cells list = xs ++ (info,v) :: ys ∧ v.addr = addr := by
  have found := (formed.linked list).find fun info => info.addr == addr
  cases here : (cells list).find? fun cell => cell.2.addr == addr with
  | none =>
    rw [here] at found
    refine .inl ⟨found,?_⟩
    intro cell member same
    have other := List.find?_eq_none.mp here cell member
    simp [same] at other
  | some cell =>
    obtain ⟨info,v⟩ := cell
    rw [here] at found
    obtain ⟨same,xs,ys,split,_⟩ := List.find?_eq_some_iff_append.mp here
    exact .inr ⟨info,v,xs,ys,found,split,beq_iff_eq.mp same⟩

theorem modify_formed (here : cells list = xs ++ (info,v) :: ys) (change : TrInfo → TrInfo)
    (addr : (change v).addr = v.addr) :
    ∃ t, modify info change s = some t ∧ Stays s cells list t (update cells list (xs ++ (info,change v) :: ys)) := by
  have linked := formed.linked list
  rw [here] at linked
  obtain ⟨_,known,val,_,_,_⟩ := linked.links
  obtain ⟨t,ran,all,loose,_⟩ := formed.linked.setVal here (change v)
  refine ⟨t,?_,⟨all,?_,?_⟩,loose,fun other _ apart => update_of_ne apart _ _⟩
  · simp only [modify,known,bind_some,val,ran]
  · intro k
    by_cases same : k = list
    · subst same
      have apart := formed.apart k
      rw [here] at apart
      simpa [addr] using apart
    · rw [update_of_ne same]
      exact formed.apart k
  intro a full
  have some_nbr : cells (.nbrList a) ≠ [] := by
    by_cases same : .nbrList a = list
    · rw [same,here]
      simp
    · rwa [update_of_ne same] at full
  obtain ⟨k,outside,member⟩ := formed.inside a some_nbr
  refine ⟨k,outside,?_⟩
  by_cases same : k = list
  · subst same
    rw [here] at member
    simpa using member
  · rwa [update_of_ne same]

theorem create_alloc (info : TrInfo) : (trInfoCreate info s).2 = (s.alloc info none).2 := by
  have leaf : cells (.nbrList s.brk) = [] := by
    by_contra full
    obtain ⟨outer,_,place⟩ := formed.inside s.brk full
    exact formed.linked.fresh outer place
  have head := formed.linked.head_empty leaf
  show ({(s.alloc info none).2 with heads := update s.heads (.nbrList s.brk) ⟨none,0⟩} : Mem) = (s.alloc info none).2
  rw [← head,update_eq_self]
  rfl

theorem insert_formed (info : TrInfo) (new : ∀ cell ∈ cells list, cell.2.addr ≠ info.addr)
    (place : ∀ a, list = .nbrList a → ∃ k, k.outer = true ∧ a ∈ (cells k).map Prod.fst) :
    ∃ t, trInfoInsert (trInfoCreate info s).1 list (trInfoCreate info s).2 = some t ∧
      Stays s cells list t (update cells list (cells list ++ [(s.brk,info)])) := by
  obtain ⟨t,ran,all,loose,_⟩ := formed.linked.insert (l := list) info
  have placed : trInfoInsert (trInfoCreate info s).1 list (trInfoCreate info s).2 = some t := by
    rw [create_alloc formed]
    simpa [trInfoInsert,trInfoCreate,Store.alloc] using ran
  refine ⟨t,placed,⟨all,?_,?_⟩,loose,fun other _ apart => update_of_ne apart _ _⟩
  · intro k
    by_cases same : k = list
    · subst same
      rw [update_self,List.map_append,List.nodup_append]
      refine ⟨formed.apart k,by simp,?_⟩
      intro a member b last same
      obtain ⟨cell,here,rfl⟩ := List.mem_map.mp member
      rw [List.map_singleton,List.mem_singleton] at last
      exact new cell here (same.trans last)
    · rw [update_of_ne same]
      exact formed.apart k
  intro a full
  have outer : ∃ k, k.outer = true ∧ a ∈ (cells k).map Prod.fst := by
    by_cases same : .nbrList a = list
    · exact place a same.symm
    · rw [update_of_ne same] at full
      exact formed.inside a full
  obtain ⟨k,outside,member⟩ := outer
  refine ⟨k,outside,?_⟩
  by_cases same : k = list
  · subst same
    rw [update_self,List.map_append]
    exact List.mem_append_left _ member
  · rwa [update_of_ne same]

theorem report_formed (list : TrInfoList) (outer : list.outer = true) (info : TrInfo) :
    ∃ t after, report list info s = some t ∧ Stays s cells list t after := by
  rcases find_cases formed list info.addr with ⟨found,new⟩ | ⟨old,v,_,_,found,here,addr⟩
  · obtain ⟨t,placed,stays⟩ := insert_formed formed info new (by
      intro a same
      rw [same] at outer
      cases outer)
    refine ⟨t,_,?_,stays⟩
    simp only [report,found,bind_some]
    exact placed
  · obtain ⟨t,written,stays⟩ := modify_formed formed here
      (fun kept => {info with addr := kept.addr,tfCnt := false,nrCnt := false}) rfl
    obtain ⟨u,after,emptied,gone,_⟩ := purge_enough stays.formed (.nbrList old)
    refine ⟨u,after,?_,stays.trans (gone.nested list)⟩
    simp only [report,found,bind_some,written]
    exact emptied

theorem reportNbr_formed (list : TrInfoList) (info : TrInfo)
    (place : ∀ a, list = .nbrList a → ∃ k, k.outer = true ∧ a ∈ (cells k).map Prod.fst) :
    ∃ t after, reportNbr list info s = some t ∧ Stays s cells list t after := by
  rcases find_cases formed list info.addr with ⟨found,new⟩ | ⟨_,v,_,_,found,here,addr⟩
  · obtain ⟨t,placed,stays⟩ := insert_formed formed info new place
    refine ⟨t,_,?_,stays⟩
    simp only [reportNbr,found,bind_some]
    exact placed
  · obtain ⟨t,written,stays⟩ := modify_formed formed here
      (fun kept => {info with addr := kept.addr,tfCnt := kept.tfCnt,nrCnt := kept.nrCnt}) rfl
    refine ⟨t,_,?_,stays⟩
    simp only [reportNbr,found,bind_some,written]

theorem nbrs_formed (nbrs : List TrInfo) (outer : list.outer = true) (member : info ∈ (cells list).map Prod.fst) :
    ∃ t after, nbrs.foldlM (fun s nbr => reportNbr (.nbrList info) nbr s) s = some t ∧ Stays s cells (.nbrList info) t after := by
  induction nbrs generalizing s cells with
  | nil => exact ⟨s,cells,rfl,Stays.refl formed _⟩
  | cons nbr rest ih =>
    obtain ⟨t,_,added,stays⟩ := reportNbr_formed formed (.nbrList info) nbr (by
      intro a same
      cases same
      exact ⟨list,outer,member⟩)
    have apart : list ≠ .nbrList info := by
      intro same
      rw [same] at outer
      cases outer
    obtain ⟨u,after,ran,kept⟩ := ih stays.formed (by rwa [stays.others list outer apart])
    refine ⟨u,after,?_,stays.trans kept⟩
    simp only [List.foldlM_cons,added]
    exact ran

theorem nbrRpt_formed (addr : EthAddr) (nbrs : List TrInfo) :
    ∃ t after, nbrRpt addr nbrs s = some t ∧ Stays s cells .srcNbrList t after := by
  rcases find_cases formed .srcNbrList addr with ⟨found,_⟩ | ⟨info,v,_,_,found,here,_⟩
  · refine ⟨s,cells,?_,Stays.refl formed _⟩
    simp only [nbrRpt,found,bind_some]
  have linked := formed.linked .srcNbrList
  rw [here] at linked
  obtain ⟨node,known,_,_,_,_⟩ := linked.links
  cases asked : node.val.tfCnt with
  | false =>
    refine ⟨s,cells,?_,Stays.refl formed _⟩
    simp only [nbrRpt,found,bind_some,known,asked]
    rfl
  | true =>
    obtain ⟨t,written,stays⟩ := modify_formed formed here (fun kept => {kept with nrCnt := true}) rfl
    obtain ⟨u,after,ran,kept⟩ := nbrs_formed stays.formed nbrs (show TrInfoList.outer .srcNbrList = true from rfl)
      (show info ∈ List.map Prod.fst _ by simp)
    refine ⟨u,after,?_,stays.trans (kept.nested .srcNbrList)⟩
    simp only [nbrRpt,found,bind_some,known,asked,if_true,written]
    exact ran

theorem note_formed (addr : EthAddr) (tfCnt nrCnt : Bool) :
    ∃ t after, note addr tfCnt nrCnt s = some t ∧ Stays s cells .srcNbrList t after := by
  rcases find_cases formed .srcNbrList addr with ⟨found,_⟩ | ⟨_,v,_,_,found,here,_⟩
  · refine ⟨s,cells,?_,Stays.refl formed _⟩
    simp only [note,found,bind_some]
  · obtain ⟨t,written,stays⟩ := modify_formed formed here (fun kept => {kept with tfCnt := tfCnt,nrCnt := nrCnt}) rfl
    refine ⟨t,_,?_,stays⟩
    simp only [note,found,bind_some,written]

theorem drain_formed (qlen : Nat) : ∃ t after, drain qlen s = some t ∧ Stays s cells .tr2List t after := by
  induction qlen generalizing s cells with
  | zero => exact ⟨s,cells,rfl,Stays.refl formed _⟩
  | succ qlen ih =>
    have start := formed.linked.start .tr2List
    cases here : cells .tr2List with
    | nil =>
      rw [here] at start
      refine ⟨s,cells,?_,Stays.refl formed _⟩
      simp only [drain,start,List.head?_nil,Option.map_none]
    | cons cell rest =>
      obtain ⟨info,v⟩ := cell
      rw [here] at start
      have front : cells .tr2List = [] ++ (info,v) :: rest := here
      obtain ⟨t,_,freed,stays,_,_⟩ := free_enough formed front
      obtain ⟨u,after,ran,kept⟩ := ih stays.formed
      refine ⟨u,after,?_,stays.trans kept⟩
      simp only [drain,start,List.head?_cons,map_some,freed,bind_some]
      exact ran

end

def OnlyNbrs (s : Mem) (cells : TrInfoList → List (Nat × TrInfo)) (t : Mem) : Prop :=
  ∃ after, Formed t after ∧ s.KeepsLoose t ∧ t.brk = s.brk ∧ ∀ k, k.outer = true → after k = cells k

section
variable (held : OnlyNbrs s cells t) (outer : list.outer = true)
include held outer

theorem OnlyNbrs.linked : Linked t list (cells list) := by
  obtain ⟨_,formed,_,_,same⟩ := held
  have linked := formed.linked list
  rwa [same list outer] at linked

theorem delNbrAt_keeps (addr : EthAddr)
    (member : cell ∈ cells list) : ∃ u, delNbrAt addr cell.1 t = some u ∧ OnlyNbrs s cells u := by
  obtain ⟨after,formed,loose,brk,same⟩ := held
  obtain ⟨info,v⟩ := cell
  obtain ⟨_,_,split⟩ := List.append_of_mem (same list outer ▸ member)
  have linked := formed.linked list
  rw [split] at linked
  obtain ⟨node,known,_,_,_,_⟩ := linked.links
  cases own : node.val.addr == addr with
  | true =>
    refine ⟨t,?_,after,formed,loose,brk,same⟩
    simp only [delNbrAt,known,bind_some,own,if_true]
  | false =>
    rcases find_cases formed (.nbrList info) addr with ⟨found,_⟩ | ⟨_,w,_,_,found,here,_⟩
    · refine ⟨t,?_,after,formed,loose,brk,same⟩
      simp only [delNbrAt,known,bind_some,own,Bool.false_eq_true,if_false,found]
    · obtain ⟨u,final,freed,stays,_,still⟩ := free_enough formed here
      refine ⟨u,?_,final,stays.formed,loose.trans stays.loose,still.trans brk,?_⟩
      · simp only [delNbrAt,known,bind_some,own,Bool.false_eq_true,if_false,found,freed]
      · intro k outside
        have apart : k ≠ .nbrList info := by
          intro same
          rw [same] at outside
          cases outside
        exact (stays.others k outside apart).trans (same k outside)

theorem delNbr_keeps (addr : EthAddr) : ∃ u, trInfoListDelNbr list addr t = some u ∧ OnlyNbrs s cells u := by
  have bound := (held.linked outer).length_le
  exact each_rule (OnlyNbrs s cells) (fun _ held => held.linked outer)
    (fun cell member _ held => delNbrAt_keeps held outer addr member) t.brk bound held

theorem arrangeAt_keeps (tfThre : UInt32)
    (member : cell ∈ cells list) : ∃ u, arrangeAt list tfThre cell.1 t = some u ∧ OnlyNbrs s cells u := by
  obtain ⟨node,known,_⟩ := (held.linked outer).owner (List.mem_map_of_mem member)
  by_cases above : firstRcv node.val.rcvNum ≥ tfThre
  · obtain ⟨u,ran,kept⟩ := delNbr_keeps held outer node.val.addr
    refine ⟨u,?_,kept⟩
    simp only [arrangeAt,known,bind_some,above,if_true,ran]
  · refine ⟨t,?_,held⟩
    simp only [arrangeAt,known,bind_some,above,if_false]

end

theorem arrangement_formed (formed : Formed s cells) (outer : list.outer = true) (tfThre : UInt32) :
    ∃ t after, trInfoListArrangement list tfThre s = some t ∧ Stays s cells list t after := by
  have start : OnlyNbrs s cells s := ⟨cells,formed,Store.KeepsLoose.refl s,rfl,fun _ _ => rfl⟩
  have bound := (formed.linked list).length_le
  obtain ⟨t,ran,after,formed,loose,_,same⟩ := each_rule (OnlyNbrs s cells) (fun _ held => held.linked outer)
    (fun cell member _ held => arrangeAt_keeps held outer tfThre member) s.brk bound start
  exact ⟨t,after,ran,formed,loose,fun k outside _ => same k outside⟩

end lists

inductive Slot where
  | tf1Info
  | tf2Info
  | sdfInfo
deriving DecidableEq

structure World where
  mem : Mem
  slots : Slot → Option Nat
  forInit : TrInfoList → Bool

def start : World := ⟨⟨fun _ => none,fun _ => ⟨none,0⟩,0⟩,fun _ => none,fun _ => true⟩

def prepare (list : TrInfoList) (w : World) : World :=
  if w.forInit list then
    {w with mem := trInfoListInit list w.mem,forInit := update w.forInit list false}
  else w

def World.onMem (w : World) (change : Mem → Option Mem) : Option World := (change w.mem).map fun s => {w with mem := s}

-- The frames and timers of the source, then those of the destination.
inductive Op where
  | typeOneTR (info : TrInfo)
  | nbrRPT (addr : EthAddr) (nbrs : List TrInfo)
  | note (addr : EthAddr) (tfCnt nrCnt : Bool)
  | selectRelay (tfThre : UInt32)
  | startCheck
  | typeTwoTR (info : TrInfo)
  | typeOneTF
  | tr2Timer
  | create (slot : Slot) (info : TrInfo)
  | write (slot : Slot) (info : TrInfo)
  | free (slot : Slot)

def createIn (slot : Slot) (info : TrInfo) (w : World) : World :=
  {w with mem := (trInfoCreate info w.mem).2,slots := update w.slots slot (some (trInfoCreate info w.mem).1)}

def writeIn (slot : Slot) (info : TrInfo) (w : World) : Option World :=
  match w.slots slot with
  | none => some w
  | some a => w.onMem (modify a fun _ => info)

def freeIn (slot : Slot) (w : World) : Option World :=
  match w.slots slot with
  | none => some w
  | some a => (w.onMem fun s => trInfoFree (freeFuel s) a s).map fun w => {w with slots := update w.slots slot none}

def step : Op → World → Option World
  | .typeOneTR info,w => (prepare .srcNbrList w).onMem (report .srcNbrList info)
  | .nbrRPT addr nbrs,w => (prepare .srcNbrList w).onMem (nbrRpt addr nbrs)
  | .note addr tfCnt nrCnt,w => if w.forInit .srcNbrList then some w else w.onMem (TlRxList.note addr tfCnt nrCnt)
  | .selectRelay tfThre,w =>
    if w.forInit .srcNbrList then some w else w.onMem (trInfoListArrangement .srcNbrList tfThre)
  | .startCheck,w => w.onMem fun s => trInfoListPurge (freeFuel s) .srcNbrList s
  | .typeTwoTR info,w => (prepare .tr2List w).onMem (report .tr2List info)
  | .typeOneTF,w => (prepare .tr2List w).onMem fun s => trInfoListPurge (freeFuel s) .tr2List s
  | .tr2Timer,w => if w.forInit .tr2List then some w else w.onMem fun s => drain (s.heads .tr2List).qlen s
  | .create slot info,w => some (createIn slot info (prepare .tr2List w))
  | .write slot info,w => writeIn slot info (prepare .tr2List w)
  | .free slot,w => freeIn slot w

def run : List Op → World → Option World
  | [],w => some w
  | op :: ops,w => (step op w).bind (run ops)

-- Lists not set up yet are empty, and the records outside are in no list and differ.
structure Sound (w : World) (cells : TrInfoList → List (Nat × TrInfo)) : Prop where
  formed : Formed w.mem cells
  unset : ∀ list, list.outer = true → w.forInit list = true → cells list = []
  slots : ∀ slot a, w.slots slot = some a → a < w.mem.brk ∧ ∃ node, w.mem.nodes a = some node ∧ node.list = none
  apart : ∀ one other a, w.slots one = some a → w.slots other = some a → one = other

section runs

theorem Sound.stays (sound : Sound w cells) (stays : Stays w.mem cells list t after)
    (ready : w.forInit list = false ∨ after list = []) : Sound {w with mem := t} after := by
  constructor
  · exact stays.formed
  · intro other outer unset
    by_cases same : other = list
    · subst same
      rcases ready with set | empty
      · exact absurd unset (by simp [set])
      · exact empty
    · rw [stays.others other outer same]
      exact sound.unset other outer unset
  · intro slot a held
    obtain ⟨old,node,known,loose⟩ := sound.slots slot a held
    exact ⟨Nat.lt_of_lt_of_le old stays.loose.brk,node,stays.loose.nodes a node old known loose,loose⟩
  · exact sound.apart

theorem prepare_set (list : TrInfoList) (w : World) : (prepare list w).forInit list = false := by
  unfold prepare
  split
  · simp
  · rename_i set
    exact Bool.eq_false_iff.mpr set

theorem Sound.prepare (sound : Sound w cells) (outer : list.outer = true) : Sound (TlRxList.prepare list w) cells := by
  unfold TlRxList.prepare
  split
  · rename_i unset
    have head := sound.formed.linked.head_empty (sound.unset list outer unset)
    have same : trInfoListInit list w.mem = w.mem := by
      unfold trInfoListInit
      rw [← head,update_eq_self]
    rw [same]
    refine ⟨sound.formed,?_,sound.slots,sound.apart⟩
    intro other outer still
    apply sound.unset other outer
    by_cases set : other = list
    · subst set
      exact unset
    · dsimp only at still
      rwa [update_of_ne set] at still
  · exact sound

theorem onMem_sound (sound : Sound w cells)
    (changed : ∃ t after, change w.mem = some t ∧ Stays w.mem cells list t after ∧ (w.forInit list = false ∨ after list = [])) :
    ∃ u after, w.onMem change = some u ∧ Sound u after := by
  obtain ⟨t,after,ran,stays,ready⟩ := changed
  refine ⟨{w with mem := t},after,?_,sound.stays stays ready⟩
  simp only [World.onMem,ran,map_some]

theorem Formed.outside (formed : Formed s cells) (loose : ∀ list, a ∉ (cells list).map Prod.fst)
    (nodes : ∀ b, b ≠ a → t.nodes b = s.nodes b) (heads : t.heads = s.heads) (brk : s.brk ≤ t.brk) : Formed t cells := by
  refine ⟨?_,formed.apart,formed.inside⟩
  intro list
  apply (formed.linked list).frame
  · intro _ member
    apply nodes
    intro same
    exact loose list (same ▸ List.mem_map_of_mem member)
  · rw [heads]
  · exact brk

theorem createIn_sound (sound : Sound w cells) (slot : Slot) (info : TrInfo) : Sound (createIn slot info w) cells := by
  have fresh := sound.formed.linked.fresh
  have made := create_alloc sound.formed info
  unfold createIn
  rw [made]
  constructor
  · apply sound.formed.outside fresh
    · intro b other
      exact update_of_ne other _ _
    · rfl
    · exact Nat.le_succ _
  · exact sound.unset
  · intro other a held
    dsimp only at held
    by_cases same : other = slot
    · subst same
      rw [update_self] at held
      cases held
      refine ⟨Nat.lt_succ_self _,⟨info,none,none,none⟩,?_,rfl⟩
      exact update_self _ _ _
    · rw [update_of_ne same] at held
      obtain ⟨old,node,known,loose⟩ := sound.slots other a held
      refine ⟨Nat.lt_succ_of_lt old,node,?_,loose⟩
      exact (update_of_ne (Nat.ne_of_lt old) _ _).trans known
  intro one other a first second
  dsimp only at first second
  have new : ∀ slot, w.slots slot ≠ some w.mem.brk := fun slot held => Nat.lt_irrefl _ (sound.slots slot _ held).1
  by_cases left : one = slot
  · by_cases right : other = slot
    · exact left.trans right.symm
    · subst left
      rw [update_self] at first
      cases first
      rw [update_of_ne right] at second
      exact absurd second (new other)
  · rw [update_of_ne left] at first
    by_cases right : other = slot
    · subst right
      rw [update_self] at second
      cases second
      exact absurd first (new one)
    · rw [update_of_ne right] at second
      exact sound.apart one other a first second

theorem writeIn_sound (sound : Sound w cells) (slot : Slot) (info : TrInfo) : ∃ u, writeIn slot info w = some u ∧ Sound u cells := by
  unfold writeIn
  cases held : w.slots slot with
  | none => exact ⟨w,rfl,sound⟩
  | some a =>
    obtain ⟨_,node,known,loose⟩ := sound.slots slot a held
    have written : w.onMem (modify a fun _ => info) =
        some {w with mem := {w.mem with nodes := update w.mem.nodes a (some {node with val := info})}} := by
      simp only [World.onMem,modify,known,bind_some,Store.setVal,map_some]
    refine ⟨_,written,?_,sound.unset,?_,sound.apart⟩
    · apply sound.formed.outside (sound.formed.linked.loose known loose)
      · intro b other
        exact update_of_ne other _ _
      · rfl
      · exact Nat.le_refl _
    · intro other b there
      obtain ⟨older,record,here,free⟩ := sound.slots other b there
      refine ⟨older,?_⟩
      by_cases same : b = a
      · subst same
        exact ⟨_,update_self _ _ _,loose⟩
      · exact ⟨record,(update_of_ne same _ _).trans here,free⟩

theorem freeIn_sound (sound : Sound w cells) (slot : Slot) : ∃ u, freeIn slot w = some u ∧ Sound u cells := by
  unfold freeIn
  cases held : w.slots slot with
  | none => exact ⟨w,rfl,sound⟩
  | some a =>
    obtain ⟨_,_,known,loose⟩ := sound.slots slot a held
    have leaf := sound.formed.loose_leaf known loose
    have freed : trInfoFree (freeFuel w.mem) a w.mem = some (w.mem.release a) := by
      have emptied := purge_empty sound.formed.linked leaf (2 * w.mem.brk + 4)
      simp only [freeFuel,trInfoFree,known,loose,emptied,map_some]
    have dropped : (w.onMem fun s => trInfoFree (freeFuel s) a s).map (fun w => {w with slots := update w.slots slot none}) =
        some ({w with mem := w.mem.release a,slots := update w.slots slot none} : World) := by
      simp only [World.onMem,freed,map_some]
    refine ⟨_,dropped,?_,sound.unset,?_,?_⟩
    · apply sound.formed.outside (sound.formed.linked.loose known loose)
      · intro b other
        exact update_of_ne other _ _
      · rfl
      · exact Nat.le_refl _
    · intro other b there
      dsimp only at there
      by_cases same : other = slot
      · subst same
        rw [update_self] at there
        cases there
      · rw [update_of_ne same] at there
        obtain ⟨older,record,here,free⟩ := sound.slots other b there
        refine ⟨older,record,?_,free⟩
        have apart : b ≠ a := by
          intro equal
          subst equal
          exact same (sound.apart other slot b there held)
        exact (update_of_ne apart _ _).trans here
    intro one other b first second
    dsimp only at first second
    by_cases left : one = slot
    · subst left
      rw [update_self] at first
      cases first
    · by_cases right : other = slot
      · subst right
        rw [update_self] at second
        cases second
      · rw [update_of_ne left] at first
        rw [update_of_ne right] at second
        exact sound.apart one other b first second

theorem step_sound (sound : Sound w cells) (op : Op) : ∃ u after, step op w = some u ∧ Sound u after := by
  have source : Sound (prepare .srcNbrList w) cells := sound.prepare rfl
  have destination : Sound (prepare .tr2List w) cells := sound.prepare rfl
  cases op with
  | typeOneTR info =>
    obtain ⟨t,after,ran,stays⟩ := report_formed source.formed .srcNbrList rfl info
    exact onMem_sound source ⟨t,after,ran,stays,.inl (prepare_set _ w)⟩
  | nbrRPT addr nbrs =>
    obtain ⟨t,after,ran,stays⟩ := nbrRpt_formed source.formed addr nbrs
    exact onMem_sound source ⟨t,after,ran,stays,.inl (prepare_set _ w)⟩
  | note addr tfCnt nrCnt =>
    simp only [step]
    split
    · exact ⟨w,cells,rfl,sound⟩
    · rename_i set
      obtain ⟨t,after,ran,stays⟩ := note_formed sound.formed addr tfCnt nrCnt
      exact onMem_sound sound ⟨t,after,ran,stays,.inl (Bool.eq_false_iff.mpr set)⟩
  | selectRelay tfThre =>
    simp only [step]
    split
    · exact ⟨w,cells,rfl,sound⟩
    · rename_i set
      obtain ⟨t,after,ran,stays⟩ := arrangement_formed sound.formed (show TrInfoList.outer .srcNbrList = true from rfl) tfThre
      exact onMem_sound sound ⟨t,after,ran,stays,.inl (Bool.eq_false_iff.mpr set)⟩
  | startCheck =>
    obtain ⟨t,after,ran,stays,empty⟩ := purge_enough sound.formed .srcNbrList
    exact onMem_sound sound ⟨t,after,ran,stays,.inr empty⟩
  | typeTwoTR info =>
    obtain ⟨t,after,ran,stays⟩ := report_formed destination.formed .tr2List rfl info
    exact onMem_sound destination ⟨t,after,ran,stays,.inl (prepare_set _ w)⟩
  | typeOneTF =>
    obtain ⟨t,after,ran,stays,empty⟩ := purge_enough destination.formed .tr2List
    exact onMem_sound destination ⟨t,after,ran,stays,.inr empty⟩
  | tr2Timer =>
    simp only [step]
    split
    · exact ⟨w,cells,rfl,sound⟩
    · rename_i set
      obtain ⟨t,after,ran,stays⟩ := drain_formed sound.formed (w.mem.heads .tr2List).qlen
      exact onMem_sound sound ⟨t,after,ran,stays,.inl (Bool.eq_false_iff.mpr set)⟩
  | create slot info => exact ⟨_,cells,rfl,createIn_sound destination slot info⟩
  | write slot info =>
    obtain ⟨u,ran,kept⟩ := writeIn_sound destination slot info
    exact ⟨u,cells,ran,kept⟩
  | free slot =>
    obtain ⟨u,ran,kept⟩ := freeIn_sound sound slot
    exact ⟨u,cells,ran,kept⟩

theorem start_sound : Sound start fun _ => [] := by
  refine ⟨⟨?_,?_,?_⟩,fun _ _ _ => rfl,?_,?_⟩
  · exact fun _ => Linked.empty rfl rfl
  · exact fun _ => List.nodup_nil
  · exact fun _ full => absurd rfl full
  · intro _ a held
    cases held
  · intro _ _ a held
    cases held

theorem ops_sound (sound : Sound w cells) (ops : List Op) : ∃ u after, run ops w = some u ∧ Sound u after := by
  induction ops generalizing w cells with
  | nil => exact ⟨w,cells,rfl,sound⟩
  | cons op ops ih =>
    obtain ⟨_,_,ran,kept⟩ := step_sound sound op
    obtain ⟨u,after,rest,final⟩ := ih kept
    refine ⟨u,after,?_,final⟩
    simp only [run,ran,bind_some,rest]

theorem lists_formed (ops : List Op) : ∃ w cells, run ops start = some w ∧ Formed w.mem cells ∧
    ∀ list, ∃ t after, trInfoListPurge (freeFuel w.mem) list w.mem = some t ∧ Formed t after ∧ after list = [] ∧
      t.heads list = ⟨none,0⟩ := by
  obtain ⟨w,cells,ran,sound⟩ := ops_sound start_sound ops
  refine ⟨w,cells,ran,sound.formed,?_⟩
  intro list
  obtain ⟨t,after,emptied,stays,empty⟩ := purge_enough sound.formed list
  exact ⟨t,after,emptied,stays.formed,empty,stays.formed.linked.head_empty empty⟩

end runs

end Mac80211.TlRxList

import Mac80211.TlRxList

namespace Mac80211.TlRxList
open LinkedList
open Function (update update_eq_self update_of_ne update_self)

section strike
variable {α β : Type} [BEq β]

-- The first element of each key is taken out.
def strike (key : α → β) (keys : List β) (list : List α) : List α :=
  keys.foldl (fun left x => left.eraseP fun a => key a == x) list

variable {key : α → β} {keys : List β} {list : List α}

theorem strike_sublist : (strike key keys list).Sublist list := by
  induction keys generalizing list with
  | nil => exact List.Sublist.refl list
  | cons x keys ih => exact ih.trans List.eraseP_sublist

variable [LawfulBEq β]

theorem strike_filter (q : α → Bool) (other : ∀ a, q a = true → key a ∉ keys) :
    (strike key keys list).filter q = list.filter q := by
  induction keys generalizing list with
  | nil => rfl
  | cons x keys ih =>
    have later : ∀ a, q a = true → key a ∉ keys := fun a good member => other a good (List.mem_cons_of_mem x member)
    refine (ih later).trans ?_
    have apart : ∀ a, q a = true → (key a == x) = false := by
      intro a good
      rw [beq_eq_false_iff_ne]
      rintro rfl
      exact other a good List.mem_cons_self
    induction list with
    | nil => rfl
    | cons a list inner =>
      cases same : key a == x with
      | true =>
        have bad : q a = false := by
          cases good : q a with
          | false => rfl
          | true => rw [apart a good] at same; cases same
        simp [same,bad]
      | false => simp [same,List.filter_cons,inner]

theorem eraseP_count (x y : β) (list : List α) : (list.eraseP fun a => key a == x).countP (fun a => key a == y) =
    list.countP (fun a => key a == y) - if x == y then 1 else 0 := by
  induction list with
  | nil => simp
  | cons a list ih =>
    cases same : key a == x with
    | true =>
      have gone : ((a :: list).eraseP fun b => key b == x) = list := List.eraseP_cons_of_pos same
      rw [gone,List.countP_cons,beq_iff_eq.mp same]
      omega
    | false =>
      have kept : ((a :: list).eraseP fun b => key b == x) = a :: list.eraseP fun b => key b == x :=
        List.eraseP_cons_of_neg (by rw [same]; exact Bool.false_ne_true)
      rw [kept,List.countP_cons,List.countP_cons,ih]
      cases both : x == y with
      | true => rw [← beq_iff_eq.mp both,same]; rfl
      | false => rfl

theorem strike_count (distinct : keys.Nodup) (y : β) : (strike key keys list).countP (fun a => key a == y) =
    list.countP (fun a => key a == y) - if y ∈ keys then 1 else 0 := by
  induction keys generalizing list with
  | nil => rfl
  | cons x keys ih =>
    obtain ⟨fresh,distinct⟩ := List.nodup_cons.mp distinct
    refine (ih distinct).trans ?_
    rw [eraseP_count]
    by_cases same : x = y
    · subst same
      simp [fresh]
    · simp [same,Ne.symm same]

theorem strike_clear (distinct : keys.Nodup) :
    (∀ a ∈ strike key keys list, key a ∉ keys) ↔ ∀ x ∈ keys, list.countP (fun a => key a == x) ≤ 1 := by
  constructor
  · intro clear x member
    have left : _ = list.countP (fun a => key a == x) - _ := strike_count distinct x
    have none_left : ((strike key keys list).countP fun a => key a == x) = 0 := by
      apply List.countP_eq_zero.mpr
      intro a here same
      rw [beq_iff_eq] at same
      exact clear a here (same ▸ member)
    rw [if_pos member,none_left] at left
    omega
  · intro single a here member
    have left : _ = list.countP (fun b => key b == key a) - _ := strike_count distinct (key a)
    have some_left : 0 < (strike key keys list).countP fun b => key b == key a :=
      List.countP_pos_iff.mpr ⟨a,here,BEq.rfl⟩
    have most := single (key a) member
    rw [if_pos member] at left
    omega

end strike

def reaches (tfThre : UInt32) (info : TrInfo) : Bool := decide (firstRcv info.rcvNum ≥ tfThre)

def delAt (addr : EthAddr) (node : Nat × TrInfo) (cells : TrInfoList → List (Nat × TrInfo)) : TrInfoList → List (Nat × TrInfo) :=
  if node.2.addr == addr then cells
  else update cells (.nbrList node.1) ((cells (.nbrList node.1)).eraseP fun nbr => nbr.2.addr == addr)

def delAll (nodes : List (Nat × TrInfo)) (addr : EthAddr) (cells : TrInfoList → List (Nat × TrInfo)) :
    TrInfoList → List (Nat × TrInfo) := nodes.foldl (fun cells node => delAt addr node cells) cells

-- Node after node: one that reaches the threshold is struck from the lists of the others.
def arranged (nodes : List (Nat × TrInfo)) (tfThre : UInt32) (cells : TrInfoList → List (Nat × TrInfo)) :
    List (Nat × TrInfo) → TrInfoList → List (Nat × TrInfo) :=
  List.foldl (fun cells node => if reaches tfThre node.2 then delAll nodes node.2.addr cells else cells) cells

structure Flat (s : Mem) (list : TrInfoList) (cells : TrInfoList → List (Nat × TrInfo)) : Prop where
  linked : AllLinked s cells
  leaves : ∀ a ∈ (cells list).map Prod.fst, ∀ nbr ∈ (cells (.nbrList a)).map Prod.fst, cells (.nbrList nbr) = []

section walks

theorem delAt_outer (outer : k.outer = true) (addr : EthAddr) (node : Nat × TrInfo) : delAt addr node cells k = cells k := by
  unfold delAt
  split
  · rfl
  · apply update_of_ne
    rintro rfl
    cases outer

theorem delAt_sublist (addr : EthAddr) (node : Nat × TrInfo) (k : TrInfoList) : (delAt addr node cells k).Sublist (cells k) := by
  unfold delAt
  split
  · exact List.Sublist.refl _
  · by_cases same : k = .nbrList node.1
    · subst same
      rw [update_self]
      exact List.eraseP_sublist
    · rw [update_of_ne same]

theorem delNbrAt_flat (flat : Flat t list cells) (outer : list.outer = true) (addr : EthAddr) (member : node ∈ cells list) :
    ∃ u, delNbrAt addr node.1 t = some u ∧ Flat u list (delAt addr node cells) ∧ u.brk = t.brk := by
  obtain ⟨a,v⟩ := node
  obtain ⟨before,_,split⟩ := List.append_of_mem member
  have linked := flat.linked list
  rw [split] at linked
  obtain ⟨record,known,val,_,_,_⟩ := linked.links
  subst val
  have flatter : ∀ {u : Mem}, AllLinked u (delAt addr (a,record.val) cells) → Flat u list (delAt addr (a,record.val) cells) := by
    intro u linked
    refine ⟨linked,?_⟩
    intro b node nbr place
    rw [delAt_outer outer] at node
    have leaf := flat.leaves b node nbr (((delAt_sublist addr _ _).map Prod.fst).subset place)
    exact List.sublist_nil.mp (leaf ▸ delAt_sublist addr (a,record.val) (.nbrList nbr))
  cases own : record.val.addr == addr with
  | true =>
    have same : delAt addr (a,record.val) cells = cells := if_pos own
    refine ⟨t,?_,flatter (same.symm ▸ flat.linked),rfl⟩
    simp only [delNbrAt,known,Option.bind_some,own,if_true]
  | false =>
    have next : delAt addr (a,record.val) cells =
        update cells (.nbrList a) ((cells (.nbrList a)).eraseP fun nbr => nbr.2.addr == addr) :=
      if_neg (by rw [own]; exact Bool.false_ne_true)
    have found := (flat.linked (.nbrList a)).find fun info => info.addr == addr
    cases here : (cells (.nbrList a)).find? fun cell => cell.2.addr == addr with
    | none =>
      rw [here] at found
      have none_there : ((cells (.nbrList a)).eraseP fun nbr => nbr.2.addr == addr) = cells (.nbrList a) :=
        List.eraseP_of_forall_not (List.find?_eq_none.mp here)
      rw [none_there,update_eq_self] at next
      refine ⟨t,?_,flatter (next.symm ▸ flat.linked),rfl⟩
      simp only [delNbrAt,known,Option.bind_some,own,Bool.false_eq_true,if_false,trInfoFindAddr,found,Option.map_none]
    | some cell =>
      obtain ⟨nbr,w⟩ := cell
      rw [here] at found
      obtain ⟨same,xs,ys,parts,before⟩ := List.find?_eq_some_iff_append.mp here
      have leaf : cells (.nbrList nbr) = [] := by
        apply flat.leaves a (List.mem_map_of_mem member)
        rw [parts]
        simp
      obtain ⟨u,freed,linked,_,brk⟩ := free_leaf flat.linked parts leaf (2 * t.brk + 4)
      have erased : ((cells (.nbrList a)).eraseP fun nbr => nbr.2.addr == addr) = xs ++ ys := by
        have gone : (((nbr,w) :: ys).eraseP fun nbr => nbr.2.addr == addr) = ys := List.eraseP_cons_of_pos same
        rw [parts,List.eraseP_append_right _ (by simpa using before),gone]
      rw [← erased,← next] at linked
      refine ⟨u,?_,flatter linked,brk⟩
      simp only [delNbrAt,known,Option.bind_some,own,Bool.false_eq_true,if_false,trInfoFindAddr,found,Option.map_some]
      exact freed

theorem delAll_outer (outer : k.outer = true) (nodes : List (Nat × TrInfo)) (addr : EthAddr) : delAll nodes addr cells k = cells k := by
  induction nodes generalizing cells with
  | nil => rfl
  | cons node rest ih => exact ih.trans (delAt_outer outer addr node)

theorem delNbr_flat (flat : Flat t list cells) (outer : list.outer = true) (addr : EthAddr) :
    ∃ u, trInfoListDelNbr list addr t = some u ∧ Flat u list (delAll (cells list) addr cells) ∧ u.brk = t.brk := by
  have bound := (flat.linked list).length_le
  refine each_walk (fun done u => Flat u list (delAll done addr cells) ∧ u.brk = t.brk) ?_ ?_ t.brk bound ⟨flat,rfl⟩
  · intro done u held
    have linked := held.1.linked list
    rwa [delAll_outer outer] at linked
  · intro done node _ split u held
    have member : node ∈ delAll done addr cells list := by
      rw [delAll_outer outer,split]
      exact List.mem_append_right done List.mem_cons_self
    obtain ⟨w,ran,flat,brk⟩ := delNbrAt_flat held.1 outer addr member
    refine ⟨w,ran,?_,brk.trans held.2⟩
    unfold delAll at flat ⊢
    rwa [List.foldl_append]

theorem arranged_outer (outer : k.outer = true) (tfThre : UInt32) (done : List (Nat × TrInfo)) :
    arranged nodes tfThre cells done k = cells k := by
  induction done generalizing cells with
  | nil => rfl
  | cons node rest ih =>
    refine ih.trans ?_
    dsimp only
    split
    · exact delAll_outer outer nodes node.2.addr
    · rfl

theorem arrangement_flat (flat : Flat s list cells) (outer : list.outer = true) (tfThre : UInt32) :
    ∃ t, trInfoListArrangement list tfThre s = some t ∧ Flat t list (arranged (cells list) tfThre cells (cells list)) := by
  have bound := (flat.linked list).length_le
  refine each_walk (fun done u => Flat u list (arranged (cells list) tfThre cells done)) ?_ ?_ s.brk bound flat
  · intro done u held
    have linked := held.linked list
    rwa [arranged_outer outer] at linked
  intro done node _ split u held
  have same : arranged (cells list) tfThre cells done list = cells list := arranged_outer outer tfThre done
  have member : node ∈ cells list := by
    rw [split]
    exact List.mem_append_right done List.mem_cons_self
  obtain ⟨_,_,parts⟩ := List.append_of_mem member
  have linked := held.linked list
  rw [same,parts] at linked
  obtain ⟨_,known,val,_,_,_⟩ := linked.links
  have grown : arranged (cells list) tfThre cells (done ++ [node]) =
      if reaches tfThre node.2 then delAll (cells list) node.2.addr (arranged (cells list) tfThre cells done)
      else arranged (cells list) tfThre cells done := by
    unfold arranged
    rw [List.foldl_append]
    rfl
  by_cases above : firstRcv node.2.rcvNum ≥ tfThre
  · have reached : reaches tfThre node.2 = true := decide_eq_true above
    obtain ⟨w,ran,flat,_⟩ := delNbr_flat held outer node.2.addr
    refine ⟨w,?_,?_⟩
    · simp only [arrangeAt,known,Option.bind_some,val,above,if_true,ran]
    · rw [same] at flat
      rwa [grown,if_pos reached]
  · refine ⟨u,?_,?_⟩
    · simp only [arrangeAt,known,Option.bind_some,val,above,if_false]
    · rwa [grown,if_neg (by simpa [reaches] using above)]

theorem delAt_other (other : k ≠ .nbrList node.1) (addr : EthAddr) : delAt addr node cells k = cells k := by
  unfold delAt
  split
  · rfl
  · exact update_of_ne other _ _

theorem delAll_other (other : ∀ node ∈ nodes, k ≠ .nbrList node.1) (addr : EthAddr) : delAll nodes addr cells k = cells k := by
  induction nodes generalizing cells with
  | nil => rfl
  | cons node rest ih =>
    exact (ih fun next member => other next (List.mem_cons_of_mem node member)).trans
      (delAt_other (other node List.mem_cons_self) addr)

theorem delAll_node (distinct : (nodes.map Prod.fst).Nodup) (member : node ∈ nodes) (addr : EthAddr) :
    delAll nodes addr cells (.nbrList node.1) =
      if node.2.addr == addr then cells (.nbrList node.1) else (cells (.nbrList node.1)).eraseP fun nbr => nbr.2.addr == addr := by
  induction nodes generalizing cells with
  | nil => cases member
  | cons first rest ih =>
    rw [List.map_cons,List.nodup_cons] at distinct
    change delAll rest addr (delAt addr first cells) (.nbrList node.1) = _
    rcases List.mem_cons.mp member with rfl | later
    · have apart : ∀ next ∈ rest, TrInfoList.nbrList node.1 ≠ .nbrList next.1 := fun next place same =>
        distinct.1 (TrInfoList.nbrList.inj same ▸ List.mem_map_of_mem place)
      rw [delAll_other apart,delAt]
      split
      · rfl
      · exact update_self _ _ _
    · have apart : TrInfoList.nbrList node.1 ≠ .nbrList first.1 := fun same =>
        distinct.1 (TrInfoList.nbrList.inj same ▸ List.mem_map_of_mem later)
      rw [ih distinct.2 later,delAt_other apart]

def heard (nodes : List (Nat × TrInfo)) (tfThre : UInt32) (own : EthAddr) : List EthAddr :=
  (nodes.filter fun node => reaches tfThre node.2 && !(own == node.2.addr)).map fun node => node.2.addr

theorem arranged_node (distinct : (nodes.map Prod.fst).Nodup) (member : node ∈ nodes) (tfThre : UInt32) (done : List (Nat × TrInfo)) :
    arranged nodes tfThre cells done (.nbrList node.1) =
      strike (fun nbr => nbr.2.addr) (heard done tfThre node.2.addr) (cells (.nbrList node.1)) := by
  unfold arranged
  induction done generalizing cells with
  | nil => rfl
  | cons first rest ih =>
    rw [List.foldl_cons,ih]
    unfold heard
    rw [List.filter_cons]
    cases above : reaches tfThre first.2 with
    | false => rfl
    | true =>
      simp only [if_true,Bool.true_and]
      rw [delAll_node distinct member]
      cases own : node.2.addr == first.2.addr with
      | true => rfl
      | false => rfl

theorem arranged_other (other : ∀ node ∈ nodes, k ≠ .nbrList node.1) (tfThre : UInt32) (done : List (Nat × TrInfo)) :
    arranged nodes tfThre cells done k = cells k := by
  induction done generalizing cells with
  | nil => rfl
  | cons first rest ih =>
    refine ih.trans ?_
    dsimp only
    split
    · exact delAll_other other first.2.addr
    · rfl

def Heard (nodes : List (Nat × TrInfo)) (tfThre : UInt32) (node : Nat × TrInfo) (addr : EthAddr) : Prop :=
  ∃ other ∈ nodes, other.1 ≠ node.1 ∧ reaches tfThre other.2 = true ∧ other.2.addr = addr

instance : Decidable (Heard nodes tfThre node addr) :=
  inferInstanceAs (Decidable (∃ other ∈ nodes, other.1 ≠ node.1 ∧ reaches tfThre other.2 = true ∧ other.2.addr = addr))

theorem mem_heard (distinct : (nodes.map fun node => node.2.addr).Nodup) (places : (nodes.map Prod.fst).Nodup) (member : node ∈ nodes) :
    addr ∈ heard nodes tfThre node.2.addr ↔ Heard nodes tfThre node addr := by
  unfold heard Heard
  simp only [List.mem_map,List.mem_filter,Bool.and_eq_true,Bool.not_eq_true',beq_eq_false_iff_ne]
  constructor
  · rintro ⟨other,⟨here,above,apart⟩,same⟩
    refine ⟨other,here,?_,above,same⟩
    intro place
    have equal := List.inj_on_of_nodup_map places here member place
    exact apart (congrArg (fun node => node.2.addr) equal).symm
  · rintro ⟨other,here,apart,above,same⟩
    refine ⟨other,⟨here,above,?_⟩,same⟩
    intro addresses
    have equal := List.inj_on_of_nodup_map distinct member here addresses
    exact apart (congrArg Prod.fst equal).symm

theorem arrangement_strikes (flat : Flat s list cells) (outer : list.outer = true)
    (distinct : ((cells list).map fun node => node.2.addr).Nodup) (tfThre : UInt32) :
    ∃ t after, trInfoListArrangement list tfThre s = some t ∧ AllLinked t after ∧
      (∀ k, (∀ node ∈ cells list, k ≠ .nbrList node.1) → after k = cells k) ∧
      (∀ node ∈ cells list, (after (.nbrList node.1)).Sublist (cells (.nbrList node.1)) ∧
        (after (.nbrList node.1)).filter (fun nbr => ¬Heard (cells list) tfThre node nbr.2.addr) =
          (cells (.nbrList node.1)).filter fun nbr => ¬Heard (cells list) tfThre node nbr.2.addr) ∧
      ∀ node ∈ cells list, (∀ nbr ∈ after (.nbrList node.1), ¬Heard (cells list) tfThre node nbr.2.addr) ↔
        ∀ addr, Heard (cells list) tfThre node addr → (cells (.nbrList node.1)).countP (fun nbr => nbr.2.addr == addr) ≤ 1 := by
  have places := (flat.linked list).distinct
  obtain ⟨t,ran,arranges⟩ := arrangement_flat flat outer tfThre
  refine ⟨t,_,ran,arranges.linked,fun k other => arranged_other other tfThre _,?_,?_⟩
  · intro node member
    rw [arranged_node places member]
    refine ⟨strike_sublist,strike_filter _ ?_⟩
    intro nbr other here
    exact of_decide_eq_true other ((mem_heard distinct places member).mp here)
  · intro node member
    have keys : (heard (cells list) tfThre node.2.addr).Nodup := distinct.sublist (List.filter_sublist.map _)
    have clear := @strike_clear _ _ _ (fun nbr : Nat × TrInfo => nbr.2.addr) _ (cells (.nbrList node.1)) _ keys
    simp only [mem_heard distinct places member] at clear
    rwa [arranged_node places member]

end walks

namespace ArrangementSample

def node (last : UInt8) (rcv : UInt32) : TrInfo := ⟨macAddr 2 0 0 0 0 last,⟨macAddr 2 0 0 0 0 1⟩,5,#v[rcv,0,0,0,0,0,0,0],0,0,false,false⟩

def cells : TrInfoList → List (Nat × TrInfo)
  | .srcNbrList => [(0,node 8 0),(1,node 9 5)]
  | .nbrList 0 => [(2,node 9 1),(3,node 9 1)]
  | _ => []

def mem : Mem where
  nodes
    | 0 => some ⟨node 8 0,some 1,none,some .srcNbrList⟩
    | 1 => some ⟨node 9 5,none,some 0,some .srcNbrList⟩
    | 2 => some ⟨node 9 1,some 3,none,some (.nbrList 0)⟩
    | 3 => some ⟨node 9 1,none,some 2,some (.nbrList 0)⟩
    | _ => none
  heads
    | .srcNbrList => ⟨some 0,2⟩
    | .nbrList 0 => ⟨some 2,2⟩
    | _ => ⟨none,0⟩
  brk := 4

theorem flat : Flat mem .srcNbrList cells := by
  constructor
  · intro l
    cases l with
    | srcNbrList => exact ⟨⟨some 1,rfl,some 1,rfl,rfl,none,rfl,rfl,rfl⟩,by decide,rfl,by decide⟩
    | tr2List => exact Linked.empty rfl rfl
    | nbrList a =>
      cases a with
      | zero => exact ⟨⟨some 3,rfl,some 3,rfl,rfl,none,rfl,rfl,rfl⟩,by decide,rfl,by decide⟩
      | succ => exact Linked.empty rfl rfl
  · decide

theorem distinct : ((cells .srcNbrList).map fun node => node.2.addr).Nodup := by decide

end ArrangementSample

open ArrangementSample in
theorem arrangement_strikes_sample : ∃ t after, trInfoListArrangement .srcNbrList 3 mem = some t ∧ AllLinked t after ∧
    (∀ k, (∀ node ∈ cells .srcNbrList, k ≠ .nbrList node.1) → after k = cells k) ∧
    (∀ node ∈ cells .srcNbrList, (after (.nbrList node.1)).Sublist (cells (.nbrList node.1)) ∧
      (after (.nbrList node.1)).filter (fun nbr => ¬Heard (cells .srcNbrList) 3 node nbr.2.addr) =
        (cells (.nbrList node.1)).filter fun nbr => ¬Heard (cells .srcNbrList) 3 node nbr.2.addr) ∧
    ∀ node ∈ cells .srcNbrList, (∀ nbr ∈ after (.nbrList node.1), ¬Heard (cells .srcNbrList) 3 node nbr.2.addr) ↔
      ∀ addr, Heard (cells .srcNbrList) 3 node addr → (cells (.nbrList node.1)).countP (fun nbr => nbr.2.addr == addr) ≤ 1 :=
  arrangement_strikes flat rfl distinct 3

open ArrangementSample in
theorem second_stays : Flat mem .srcNbrList cells ∧ ((cells .srcNbrList).map fun node => node.2.addr).Nodup ∧
    reaches 3 (node 9 5) = true ∧
    (trInfoListArrangement .srcNbrList 3 mem).map (fun t => (t.vals (.nbrList 0)).map TrInfo.addr) = some [(node 9 5).addr] :=
  ⟨flat,distinct,by decide,by decide +kernel⟩

end Mac80211.TlRxList

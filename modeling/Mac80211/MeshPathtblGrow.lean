import Mac80211.MeshPathtblCount
import Mac80211.Blocks

namespace Mac80211.MeshPathtbl
open HashChains Ieee80211
open Blocks (Memory)

-- A node holds the place of its mesh_path. retired: tables that wait for mesh_table_free_rcu; others: nodes
-- in no table.
structure Nodes where
  heap : Memory Nat
  tbl : Table
  retired : List Table
  others : List Nat

def mpathOf (heap : Memory Nat) (node : Nat) : Nat := (heap.contents[node]?).getD 0

def Table.alloc (sizeOrder : Nat) (hashRnd : UInt32) : Table := ⟨sizeOrder,hashRnd,0,List.replicate (2 ^ sizeOrder) [],[]⟩

section nodes
variable (jhash : UInt32 → UInt32 → UInt32 → UInt32)

def Nodes.mpathLookup (g : Nodes) (w : World) (s : Nat) (dst : EthAddr) : Option Nat :=
  (HashChains.find (fun node => w.is s dst (mpathOf g.heap node)) (meshTableHash jhash dst (w.ifindex s) g.tbl)
    g.tbl.hashBuckets).map (mpathOf g.heap)

def meshPathNodeCopy (w : World) (heap : Memory Nat) (newtbl : Table) (node : Nat) : Memory Nat × Table :=
  (heap.alloc (mpathOf heap node),
    {newtbl with hashBuckets := addHead newtbl.hashBuckets (w.index jhash newtbl (mpathOf heap node)) heap.next})

def copyNodes (w : World) (allocs : Nat → Bool) : Nat → List Nat → Memory Nat → Table → Memory Nat × Table × Bool
  | _,[],heap,newtbl => (heap,newtbl,true)
  | k,node :: nodes,heap,newtbl =>
    if allocs k then
      let copied := meshPathNodeCopy jhash w heap newtbl node
      copyNodes w allocs (k + 1) nodes copied.1 copied.2
    else (heap,newtbl,false)

def meshPathNodeFree (heap : Memory Nat) (node : Nat) : Memory Nat := heap.free (some node)

def meshTableGrow (w : World) (allocs : Nat → Bool) (heap : Memory Nat) (oldtbl newtbl : Table) : Memory Nat × Option Table :=
  if !oldtbl.full then (heap,none)
  else
    let copied := copyNodes jhash w allocs 0 oldtbl.nodes heap
      {newtbl with knownGates := oldtbl.knownGates,entries := oldtbl.entries}
    if copied.2.2 then (copied.1,some copied.2.1) else (copied.2.1.nodes.foldl meshPathNodeFree copied.1,none)

def Nodes.tableGrow (g : Nodes) (w : World) (hashRnd : UInt32) (allocTable : Bool) (allocs : Nat → Bool) : Nodes :=
  if !allocTable then g
  else
    let grown := meshTableGrow jhash w allocs g.heap g.tbl (.alloc (g.tbl.sizeOrder + 1) hashRnd)
    match grown.2 with
    | none => {g with heap := grown.1}
    | some newtbl => {g with heap := grown.1,tbl := newtbl,retired := g.retired ++ [g.tbl]}

end nodes

def Nodes.meshTableFree (g : Nodes) (j : Nat) : Option Nodes :=
  (g.retired[j]?).map fun tbl => {g with heap := tbl.nodes.foldl meshPathNodeFree g.heap,retired := g.retired.eraseIdx j}

def Nodes.held (g : Nodes) : List Nat := g.tbl.nodes ++ (g.retired.flatMap Table.nodes ++ g.others)

def readTable (heap : Memory Nat) (tbl : Table) : Table := {tbl with hashBuckets := tbl.hashBuckets.map (List.map (mpathOf heap))}

structure Nodes.Represents (g : Nodes) (w : World) (kind : Kind) : Prop where
  accounted : Blocks.Accounted g.held g.heap
  table : readTable g.heap g.tbl = w.table kind

section reads

theorem mpathOf_alloc (low : node < heap.next) (mpath : Nat) : mpathOf (heap.alloc mpath) node = mpathOf heap node := by
  unfold mpathOf Memory.alloc
  rw [List.getElem?_append_left low]

theorem mpathOf_new (heap : Memory Nat) (mpath : Nat) : mpathOf (heap.alloc mpath) heap.next = mpath := by
  simp [mpathOf,Memory.alloc,Memory.next]

theorem read_congr (same : ∀ node ∈ tbl.nodes, mpathOf heap' node = mpathOf heap node) : readTable heap' tbl = readTable heap tbl := by
  have buckets : tbl.hashBuckets.map (List.map (mpathOf heap')) = tbl.hashBuckets.map (List.map (mpathOf heap)) := by
    apply List.map_congr_left
    intro bucket member
    apply List.map_congr_left
    intro node inside
    exact same node (List.mem_flatten.mpr ⟨bucket,member,inside⟩)
  unfold readTable
  rw [buckets]

theorem nodes_lookup (jhash : UInt32 → UInt32 → UInt32 → UInt32) (g : Nodes) (w : World) (s : Nat) (dst : EthAddr) :
    g.mpathLookup jhash w s dst = HashChains.find (w.is s dst) (meshTableHash jhash dst (w.ifindex s) (readTable g.heap g.tbl))
      (readTable g.heap g.tbl).hashBuckets :=
  (find_map (mpathOf g.heap) (w.is s dst) _ g.tbl.hashBuckets).symm

end reads

section copies
variable {jhash : UInt32 → UInt32 → UInt32 → UInt32}

theorem copy_spec (accounted : Blocks.Accounted (newtbl.nodes ++ held) heap) (sized : newtbl.hashBuckets.length = 2 ^ newtbl.sizeOrder)
    (node : Nat) (copied : meshPathNodeCopy jhash w heap newtbl node = (heap',newtbl')) :
    Blocks.Accounted (newtbl'.nodes ++ held) heap' ∧ newtbl'.hashBuckets.length = 2 ^ newtbl'.sizeOrder ∧
      readTable heap' newtbl' = {readTable heap newtbl with
        hashBuckets := addHead (readTable heap newtbl).hashBuckets (w.index jhash newtbl (mpathOf heap node)) (mpathOf heap node)} := by
  cases copied
  have inside : w.index jhash newtbl (mpathOf heap node) < newtbl.hashBuckets.length := by
    rw [sized]
    exact index_lt jhash w newtbl (mpathOf heap node)
  refine ⟨?_,(length_addHead _ _ _).trans sized,?_⟩
  · have first := accounted.alloc (mpathOf heap node)
    exact first.swap ((addHead_perm inside heap.next).append_right held).symm
  · have old : readTable (heap.alloc (mpathOf heap node)) newtbl = readTable heap newtbl :=
      read_congr fun n member => mpathOf_alloc (accounted.given (List.mem_append_left held member)) _
    have chains := congrArg Table.hashBuckets old
    unfold readTable at chains ⊢
    dsimp only at chains ⊢
    rw [map_addHead,mpathOf_new,chains]

variable (jhash) (w : World) in
theorem copyNodes_spec (allocs : Nat → Bool) (nodes : List Nat) : ∀ (k : Nat) (heap : Memory Nat) (newtbl : Table),
    Blocks.Accounted (newtbl.nodes ++ held) heap → newtbl.hashBuckets.length = 2 ^ newtbl.sizeOrder → (∀ node ∈ nodes, node ∈ held) →
    ∃ heap' newtbl' done, copyNodes jhash w allocs k nodes heap newtbl = (heap',newtbl',done) ∧
      Blocks.Accounted (newtbl'.nodes ++ held) heap' ∧ heap'.freed = heap.freed ∧ heap.contents <+: heap'.contents ∧
      (done = true ↔ ∀ j, j < nodes.length → allocs (k + j) = true) ∧
      (done = true → readTable heap' newtbl' = {readTable heap newtbl with
        hashBuckets := rehash (w.index jhash newtbl) (readTable heap newtbl).hashBuckets (nodes.map (mpathOf heap))}) := by
  induction nodes with
  | nil =>
    intro k heap newtbl accounted _ _
    refine ⟨heap,newtbl,true,rfl,accounted,rfl,List.prefix_rfl,?_,fun _ => rfl⟩
    exact ⟨fun _ j inside => absurd inside (Nat.not_lt_zero j),fun _ => rfl⟩
  | cons node nodes ih =>
    intro k heap newtbl accounted sized listed
    unfold copyNodes
    split
    · rename_i first
      obtain ⟨next,sizedNext,read⟩ := copy_spec accounted sized node (show meshPathNodeCopy jhash w heap newtbl node = _ from rfl)
      obtain ⟨heap',newtbl',done,copied,kept,freed,older,whole,full⟩ := ih (k + 1) _ _ next sizedNext
        fun n member => listed n (List.mem_cons_of_mem node member)
      refine ⟨heap',newtbl',done,copied,kept,freed,?_,?_,?_⟩
      · exact (List.prefix_append heap.contents [mpathOf heap node]).trans older
      · rw [whole]
        constructor
        · intro rest j inside
          cases j with
          | zero => exact first
          | succ j =>
            rw [← Nat.add_assoc,Nat.add_right_comm]
            exact rest j (Nat.lt_of_succ_lt_succ inside)
        · intro all j inside
          rw [Nat.add_right_comm]
          exact all (j + 1) (Nat.succ_lt_succ inside)
      · intro ended
        rw [full ended,read]
        have same : nodes.map (mpathOf (heap.alloc (mpathOf heap node))) = nodes.map (mpathOf heap) := by
          apply List.map_congr_left
          intro n member
          exact mpathOf_alloc (accounted.given (List.mem_append_right _ (listed n (List.mem_cons_of_mem node member)))) _
        rw [same]
        rfl
    · rename_i failed
      refine ⟨heap,newtbl,false,rfl,accounted,rfl,List.prefix_rfl,?_,nofun⟩
      constructor
      · nofun
      · intro all
        exact absurd (all 0 (Nat.zero_lt_succ _)) failed

theorem free_all : ∀ {heap : Memory Nat}, Blocks.Accounted (nodes ++ held) heap →
    Blocks.Accounted held (nodes.foldl meshPathNodeFree heap) := by
  induction nodes with
  | nil => exact fun accounted => accounted
  | cons node nodes ih =>
    intro _ accounted
    exact ih accounted.free

theorem free_contents (nodes : List Nat) : ∀ (heap : Memory Nat), (nodes.foldl meshPathNodeFree heap).contents = heap.contents := by
  induction nodes with
  | nil => exact fun heap => rfl
  | cons node nodes ih => exact fun heap => ih (meshPathNodeFree heap node)

end copies

section grows
variable {g : Nodes}

theorem mpathOf_older (older : heap.contents <+: heap'.contents) (low : node < heap.next) :
    mpathOf heap' node = mpathOf heap node := by
  obtain ⟨_,whole⟩ := older
  unfold mpathOf
  rw [← whole,List.getElem?_append_left low]

theorem alloc_nodes (sizeOrder : Nat) (hashRnd : UInt32) : (Table.alloc sizeOrder hashRnd).nodes = [] :=
  List.flatten_eq_nil_iff.mpr fun _ member => List.eq_of_mem_replicate member

theorem read_alloc (heap : Memory Nat) (sizeOrder : Nat) (hashRnd : UInt32) :
    readTable heap (Table.alloc sizeOrder hashRnd) = Table.alloc sizeOrder hashRnd := by
  unfold readTable Table.alloc
  rw [List.map_replicate]
  rfl

theorem read_nodes (heap : Memory Nat) (tbl : Table) : (readTable heap tbl).nodes = tbl.nodes.map (mpathOf heap) := List.map_flatten.symm

def Table.Completes (tbl : Table) (allocs : Nat → Bool) : Prop := tbl.full = true ∧ ∀ j, j < tbl.nodes.length → allocs j = true

def Table.larger (tbl : Table) (w : World) (jhash : UInt32 → UInt32 → UInt32 → UInt32) (sizeOrder : Nat) (hashRnd : UInt32) : Table :=
  {tbl with
    sizeOrder := sizeOrder,
    hashRnd := hashRnd,
    hashBuckets := rehash (w.index jhash (.alloc sizeOrder hashRnd)) (List.replicate (2 ^ sizeOrder) []) tbl.nodes}

theorem meshTableGrow_spec
    (accounted : Blocks.Accounted held heap) (listed : ∀ node ∈ oldtbl.nodes, node ∈ held) (allocs : Nat → Bool) (sizeOrder : Nat)
    (hashRnd : UInt32) (grew : meshTableGrow jhash w allocs heap oldtbl (.alloc sizeOrder hashRnd) = (heap',out)) :
    heap.contents <+: heap'.contents ∧
    (oldtbl.Completes allocs ∧ (∃ newtbl, out = some newtbl ∧ Blocks.Accounted (newtbl.nodes ++ held) heap' ∧
        readTable heap' newtbl = (readTable heap oldtbl).larger w jhash sizeOrder hashRnd) ∨
      ¬oldtbl.Completes allocs ∧ out = none ∧ Blocks.Accounted held heap') := by
  unfold meshTableGrow at grew
  split at grew
  · rename_i small
    cases grew
    refine ⟨List.prefix_rfl,.inr ⟨?_,rfl,accounted⟩⟩
    rintro ⟨full,-⟩
    rw [full] at small
    cases small
  rename_i room
  have full : oldtbl.full = true := by simpa using room
  have empty := alloc_nodes sizeOrder hashRnd
  obtain ⟨_,newtbl,_,ran,kept,-,older,whole,read⟩ := copyNodes_spec jhash w allocs oldtbl.nodes 0 heap
    {Table.alloc sizeOrder hashRnd with knownGates := oldtbl.knownGates,entries := oldtbl.entries}
    (show Blocks.Accounted ((Table.alloc sizeOrder hashRnd).nodes ++ held) heap by rw [empty]; exact accounted)
    List.length_replicate listed
  rw [ran] at grew
  dsimp only at grew
  simp only [Nat.zero_add] at whole
  split at grew
  · rename_i ended
    cases grew
    refine ⟨older,.inl ⟨⟨full,whole.mp ended⟩,newtbl,rfl,kept,?_⟩⟩
    rw [read ended]
    have start := congrArg Table.hashBuckets (read_alloc heap sizeOrder hashRnd)
    unfold readTable at start ⊢
    rw [start]
    unfold Table.larger
    have paths : (readTable heap oldtbl).nodes = oldtbl.nodes.map (mpathOf heap) := read_nodes heap oldtbl
    unfold readTable at paths
    rw [paths]
    rfl
  · rename_i failed
    cases grew
    refine ⟨?_,.inr ⟨fun completes => failed (whole.mpr completes.2),rfl,free_all kept⟩⟩
    rw [free_contents]
    exact older

theorem nodesGrow_cases (accounted : Blocks.Accounted g.held g.heap) (w : World) (hashRnd : UInt32) (allocTable : Bool) (allocs : Nat → Bool)
    (grew : g.tableGrow jhash w hashRnd allocTable allocs = g') :
    g.heap.contents <+: g'.heap.contents ∧ Blocks.Accounted g'.held g'.heap ∧ (∀ node ∈ g.held, node ∈ g'.held) ∧
    ((allocTable = true ∧ g.tbl.Completes allocs) ∧
        readTable g'.heap g'.tbl = (readTable g.heap g.tbl).larger w jhash (g.tbl.sizeOrder + 1) hashRnd ∨
      ¬(allocTable = true ∧ g.tbl.Completes allocs) ∧ g'.tbl = g.tbl ∧ g'.retired = g.retired ∧ g'.others = g.others) := by
  have listed : ∀ node ∈ g.tbl.nodes, node ∈ g.held := fun node member => List.mem_append_left _ member
  unfold Nodes.tableGrow at grew
  split at grew
  · rename_i missing
    cases grew
    refine ⟨List.prefix_rfl,accounted,fun node member => member,.inr ⟨?_,rfl,rfl,rfl⟩⟩
    rintro ⟨there,-⟩
    rw [there] at missing
    cases missing
  rename_i there
  have table : allocTable = true := by simpa using there
  obtain ⟨⟨heap,_⟩,result⟩ : ∃ r, meshTableGrow jhash w allocs g.heap g.tbl (.alloc (g.tbl.sizeOrder + 1) hashRnd) = r :=
    ⟨_,rfl⟩
  obtain ⟨older,outcome⟩ := meshTableGrow_spec accounted listed allocs (g.tbl.sizeOrder + 1) hashRnd result
  rw [result] at grew
  rcases outcome with ⟨completes,newtbl,rfl,kept,read⟩ | ⟨incomplete,rfl,kept⟩
  · cases grew
    have waits : g.held.Perm ((g.retired ++ [g.tbl]).flatMap Table.nodes ++ g.others) := by
      unfold Nodes.held
      rw [List.flatMap_append,List.flatMap_singleton,← List.append_assoc]
      exact List.perm_append_comm.append_right g.others
    refine ⟨older,kept.swap (waits.append_left newtbl.nodes),?_,.inl ⟨⟨table,completes⟩,read⟩⟩
    intro node member
    exact List.mem_append_right _ (waits.mem_iff.mp member)
  · cases grew
    exact ⟨older,kept,fun node member => member,.inr ⟨fun both => incomplete both.2,rfl,rfl,rfl⟩⟩

theorem grow_nodes (jhash : UInt32 → UInt32 → UInt32 → UInt32) (w : World) (kind : Kind) (hashRnd : UInt32) (alloc : Bool) :
    ((w.tableGrow jhash kind hashRnd alloc).table kind).nodes.Perm (w.table kind).nodes ∧
      (w.tableGrow jhash kind hashRnd alloc).paths = w.paths ∧ (w.tableGrow jhash kind hashRnd alloc).ifaces = w.ifaces := by
  unfold World.tableGrow
  dsimp only
  split
  · exact ⟨.refl _,rfl,rfl⟩
  · refine ⟨?_,by cases kind <;> rfl,by cases kind <;> rfl⟩
    rw [table_setTable,if_pos rfl]
    exact larger_nodes jhash w {w.table kind with sizeOrder := (w.table kind).sizeOrder + 1,hashRnd := hashRnd} (w.table kind).nodes

theorem grow_find (sound : Sound jhash w) (kind : Kind) (hashRnd : UInt32) (alloc : Bool) (s : Nat) (dst : EthAddr) :
    (w.tableGrow jhash kind hashRnd alloc).find jhash kind s dst = w.find jhash kind s dst := by
  obtain ⟨nodes,paths,-⟩ := grow_nodes jhash w kind hashRnd alloc
  have soundAfter := (grow_kept sound kind hashRnd alloc).sound
  have key : (w.tableGrow jhash kind hashRnd alloc).key = w.key := by
    funext p
    unfold World.key
    rw [paths]
  cases before : w.find jhash kind s dst with
  | none =>
    cases after : (w.tableGrow jhash kind hashRnd alloc).find jhash kind s dst with
    | none => rfl
    | some q =>
      obtain ⟨there,found⟩ := find_node after
      rw [key] at found
      exact absurd found (find_missing sound before q (nodes.mem_iff.mp there))
  | some p =>
    obtain ⟨there,found⟩ := find_node before
    cases after : (w.tableGrow jhash kind hashRnd alloc).find jhash kind s dst with
    | none =>
      rw [← key] at found
      exact absurd found (find_missing soundAfter after p (nodes.mem_iff.mpr there))
    | some q =>
      obtain ⟨thereAfter,foundAfter⟩ := find_node after
      rw [key] at foundAfter
      have same : q = p := List.inj_on_of_nodup_map (sound.unique kind) (nodes.mem_iff.mp thereAfter) there (foundAfter.trans found.symm)
      rw [same]

theorem tableGrow_table (w : World) (kind : Kind) (hashRnd : UInt32) (alloc : Bool) :
    (w.tableGrow jhash kind hashRnd alloc).table kind =
      if (w.table kind).full && alloc then (w.table kind).larger w jhash ((w.table kind).sizeOrder + 1) hashRnd
      else w.table kind := by
  unfold World.tableGrow
  dsimp only
  cases (w.table kind).full with
  | false => rfl
  | true =>
    cases alloc with
    | false => rfl
    | true => exact (table_setTable w _ kind kind).trans (if_pos rfl)

theorem represents_lookup {v : World} (table : readTable g.heap g.tbl = v.table kind) (paths : v.paths = w.paths) (ifaces : v.ifaces = w.ifaces)
    (s : Nat) (dst : EthAddr) : g.mpathLookup jhash w s dst = v.find jhash kind s dst := by
  have is : v.is = w.is := by
    funext s dst p
    unfold World.is
    rw [paths]
  have ifindex : v.ifindex = w.ifindex := by
    funext s
    unfold World.ifindex
    rw [ifaces]
  rw [nodes_lookup,table]
  unfold World.find
  rw [is,ifindex]

def Nodes.memory (g : Nodes) (allocTable : Bool) (allocs : Nat → Bool) : Bool := allocTable && (List.range g.tbl.nodes.length).all allocs

theorem memory_iff (g : Nodes) (allocTable : Bool) (allocs : Nat → Bool) :
    (g.tbl.full && g.memory allocTable allocs) = true ↔ allocTable = true ∧ g.tbl.Completes allocs := by
  unfold Nodes.memory Table.Completes
  simp only [Bool.and_eq_true,List.all_eq_true,List.mem_range]
  tauto

theorem represents_grow (represents : g.Represents w kind) (hashRnd : UInt32) (allocTable : Bool) (allocs : Nat → Bool)
    (grew : g.tableGrow jhash w hashRnd allocTable allocs = g') :
    g'.Represents (w.tableGrow jhash kind hashRnd (g.memory allocTable allocs)) kind := by
  obtain ⟨older,accounted,-,outcome⟩ := nodesGrow_cases represents.accounted w hashRnd allocTable allocs grew
  have decided := memory_iff g allocTable allocs
  have full : (w.table kind).full = g.tbl.full := by
    rw [← represents.table]
    rfl
  refine ⟨accounted,?_⟩
  rw [tableGrow_table,full]
  rcases outcome with ⟨completes,read⟩ | ⟨incomplete,same,-,-⟩
  · rw [if_pos (decided.mpr completes),read,represents.table,← represents.table]
    rfl
  · rw [if_neg (fun both => incomplete (decided.mp both)),same,← represents.table]
    apply read_congr
    intro _ member
    exact mpathOf_older older (represents.accounted.given (List.mem_append_left _ member))

theorem represents_free (represents : g.Represents w kind) (freed : g.meshTableFree j = some g') : g'.Represents w kind := by
  obtain ⟨tbl,waits,rfl⟩ := Option.map_eq_some_iff.mp freed
  obtain ⟨inside,rfl⟩ := List.getElem?_eq_some_iff.mp waits
  have retired : (g.retired.flatMap Table.nodes).Perm (g.retired[j].nodes ++ (g.retired.eraseIdx j).flatMap Table.nodes) :=
    (List.getElem_cons_eraseIdx_perm inside).symm.flatMap_right Table.nodes
  have first : g.held.Perm (g.retired[j].nodes ++ (g.tbl.nodes ++ ((g.retired.eraseIdx j).flatMap Table.nodes ++ g.others))) := by
    have rest := (retired.append_right g.others).append_left g.tbl.nodes
    rw [List.append_assoc] at rest
    exact rest.trans (List.perm_append_comm_assoc _ _ _)
  constructor
  · exact free_all (represents.accounted.swap first)
  · rw [← represents.table]
    apply read_congr
    intro _ _
    unfold mpathOf
    rw [free_contents]

theorem nodesGrow_load (represents : g.Represents w kind) (hashRnd : UInt32) (allocTable : Bool) (allocs : Nat → Bool)
    (grew : g.tableGrow jhash w hashRnd allocTable allocs = g') (member : node ∈ g.held) :
    g'.heap.load node = g.heap.load node := by
  obtain ⟨⟨_,older⟩,accounted,held,-⟩ := nodesGrow_cases represents.accounted w hashRnd allocTable allocs grew
  unfold Memory.load
  rw [if_neg (accounted.live (held node member)),if_neg (represents.accounted.live member),← older,
    List.getElem?_append_left (represents.accounted.given member)]

theorem table_grow_preserves (initial : start.Initial) (reach : Reach jhash start w) (represents : g.Represents w kind)
    (hashRnd : UInt32) (allocTable : Bool) (allocs : Nat → Bool) (grew : g.tableGrow jhash w hashRnd allocTable allocs = g') :
    (∀ s dst, g'.mpathLookup jhash w s dst = g.mpathLookup jhash w s dst) ∧ g'.tbl.entries = g.tbl.entries ∧
    (∀ node ∈ g.held, g'.heap.load node = g.heap.load node) ∧
    (¬(allocTable = true ∧ g.tbl.Completes allocs) → g'.tbl = g.tbl ∧ g'.retired = g.retired ∧ g'.others = g.others) ∧
    g'.Represents (w.tableGrow jhash kind hashRnd (g.memory allocTable allocs)) kind ∧
    ∀ j g'', g'.meshTableFree j = some g'' → g''.Represents (w.tableGrow jhash kind hashRnd (g.memory allocTable allocs)) kind ∧
      ∀ s dst, g''.mpathLookup jhash w s dst = g.mpathLookup jhash w s dst := by
  have grown := represents_grow represents hashRnd allocTable allocs grew
  have sound := reach_sound reach initial
  obtain ⟨-,paths,ifaces⟩ := grow_nodes jhash w kind hashRnd (g.memory allocTable allocs)
  have found : ∀ (h : Nodes), h.Represents (w.tableGrow jhash kind hashRnd (g.memory allocTable allocs)) kind →
      ∀ s dst, h.mpathLookup jhash w s dst = g.mpathLookup jhash w s dst := by
    intro h after s _
    rw [represents_lookup after.table paths ifaces,grow_find sound,represents_lookup represents.table rfl rfl]
  obtain ⟨-,-,-,outcome⟩ := nodesGrow_cases represents.accounted w hashRnd allocTable allocs grew
  refine ⟨found g' grown,?_,fun node member => nodesGrow_load represents hashRnd allocTable allocs grew member,?_,grown,?_⟩
  · rcases outcome with ⟨-,read⟩ | ⟨-,same,-,-⟩
    · have entries := congrArg Table.entries read
      exact entries
    · rw [same]
  · intro incomplete
    rcases outcome with ⟨completes,-⟩ | ⟨-,left⟩
    · exact absurd completes incomplete
    · exact left
  · intro j g'' freed
    have after := represents_free grown freed
    exact ⟨after,found g'' after⟩

end grows

def sampleAdds : List Event := (List.range 8).map fun k => .pathAdd 0 (macAddr 2 0 (UInt8.ofNat k) 0 0 2) true true
def sampleFull : World := sampleTablesAfter sampleAdds
def sampleNodes : Nodes := ⟨⟨List.range 8,[]⟩,⟨2,7,8,[[4,0],[5,1],[6,2],[7,3]],[]⟩,[],[]⟩
def sampleGrown : Nodes := sampleNodes.tableGrow sampleHash sampleFull 11 true fun _ => true

theorem table_grow_preserves_sample :
    (∀ s dst, sampleGrown.mpathLookup sampleHash sampleFull s dst = sampleNodes.mpathLookup sampleHash sampleFull s dst) ∧
    sampleGrown.tbl.entries = sampleNodes.tbl.entries ∧ (∀ node ∈ sampleNodes.held, sampleGrown.heap.load node = sampleNodes.heap.load node) ∧
    (¬(true = true ∧ sampleNodes.tbl.Completes fun _ => true) →
      sampleGrown.tbl = sampleNodes.tbl ∧ sampleGrown.retired = sampleNodes.retired ∧ sampleGrown.others = sampleNodes.others) ∧
    sampleGrown.Represents (sampleFull.tableGrow sampleHash .paths 11 (sampleNodes.memory true fun _ => true)) .paths ∧
    ∀ j g'', sampleGrown.meshTableFree j = some g'' →
      g''.Represents (sampleFull.tableGrow sampleHash .paths 11 (sampleNodes.memory true fun _ => true)) .paths ∧
      ∀ s dst, g''.mpathLookup sampleHash sampleFull s dst = sampleNodes.mpathLookup sampleHash sampleFull s dst := by
  have ran : run sampleHash sampleAdds sampleTables = some sampleFull := by decide
  have apart : (sampleNodes.held ++ []).Perm (List.range 8) := by decide
  have table : sampleFull.meshPaths = ⟨2,7,8,[[4,0],[5,1],[6,2],[7,3]],[]⟩ := by decide
  have represents : sampleNodes.Represents sampleFull .paths := ⟨apart,table.symm⟩
  exact table_grow_preserves sampleTables_initial (Transitions.run_reach .step .refl ran) represents 11 true (fun _ => true) rfl

end Mac80211.MeshPathtbl

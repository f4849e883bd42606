import Mac80211.MeshPathtbl

namespace Mac80211.MeshPathtbl
open HashChains Ieee80211
open RxReorder (timeAfter)
open Option (map_eq_some_iff map_map any_eq_true)

def World.key (w : World) (p : Nat) : Option (Nat × EthAddr) := (w.paths[p]?).map fun m => (m.sdata,m.dst)
def World.owner (w : World) (p : Nat) : Option Nat := (w.key p).map Prod.fst
def World.num (w : World) (s : Nat) : Option Int := (w.ifaces[s]?).map Iface.numGates
def World.mpaths (w : World) (s : Nat) : Option Int := (w.ifaces[s]?).map Iface.mpaths

def World.Owned (w : World) (p : Nat) : Prop := ∃ s, w.owner p = some s ∧ s < w.ifaces.length

structure Sound (jhash : UInt32 → UInt32 → UInt32 → UInt32) (w : World) : Prop where
  sized : ∀ kind, (w.table kind).hashBuckets.length = 2 ^ (w.table kind).sizeOrder
  placed : ∀ kind, Placed (w.index jhash (w.table kind)) (w.table kind).hashBuckets
  unique : ∀ kind, ((w.table kind).nodes.map w.key).Nodup
  owned : ∀ kind, ∀ p ∈ (w.table kind).nodes, w.Owned p
  waits : ∀ node ∈ w.rcu, w.Owned node.2
  gates : ∀ p ∈ w.meshPaths.knownGates, w.Owned p
  noGates : w.mppPaths.knownGates = []
  entries : ∀ kind, (w.table kind).entries = ((w.table kind).nodes.length : Int)
  numGates : ∀ s n, w.num s = some n → n = (w.meshPaths.knownGates.countP (fun p => w.owner p == some s) : Int)

def World.inTable (w : World) (s : Nat) : Nat := (w.table .paths).nodes.countP fun p => w.owner p == some s
def World.waiting (w : World) (s : Nat) : Nat := w.rcu.countP fun node => node.1 == .paths && w.owner node.2 == some s

def Accounted (w : World) : Prop :=
  ∀ (s : Nat) (iface : Iface), w.ifaces[s]? = some iface → iface.mpaths = (w.inTable s + w.waiting s : Int)

structure Same (w w' : World) : Prop where
  key : w'.key = w.key
  table : w'.table = w.table
  rcu : w'.rcu = w.rcu
  ifindex : w'.ifindex = w.ifindex
  num : w'.num = w.num
  length : w'.ifaces.length = w.ifaces.length

variable {w w' : World} {p s : Nat}

theorem Same.refl (w : World) : Same w w := ⟨rfl,rfl,rfl,rfl,rfl,rfl⟩

theorem index_key (w : World) (tbl : Table) (p : Nat) :
    w.index jhash tbl p = (w.key p).elim 0 fun k => meshTableHash jhash k.2 (w.ifindex k.1) tbl := by
  unfold World.index World.key
  cases w.paths[p]? <;> rfl

theorem counts_of_ifaces (ifaces : w'.ifaces = w.ifaces) : w'.ifindex = w.ifindex ∧ w'.num = w.num ∧ w'.mpaths = w.mpaths := by
  unfold World.ifindex World.num World.mpaths
  rw [ifaces]
  exact ⟨rfl,rfl,rfl⟩

theorem owner_of_key (key : w'.key = w.key) : w'.owner = w.owner := by
  funext p
  unfold World.owner
  rw [key]

theorem owned_iff (key : w'.key = w.key) (length : w'.ifaces.length = w.ifaces.length) : w'.Owned p ↔ w.Owned p := by
  unfold World.Owned
  rw [owner_of_key key,length]

theorem index_of_key (key : w'.key = w.key) (ifindex : w'.ifindex = w.ifindex) : w'.index jhash = w.index jhash := by
  funext tbl p
  rw [index_key,index_key,key,ifindex]

structure TableKept (index : Nat → Nat) (old new : Table) : Prop where
  sized : new.hashBuckets.length = 2 ^ new.sizeOrder
  placed : Placed index new.hashBuckets
  nodes : new.nodes.Subperm old.nodes
  entries : new.entries = (new.nodes.length : Int)

theorem sound_of_tables (sound : Sound jhash w) (key : w'.key = w.key) (ifindex : w'.ifindex = w.ifindex)
    (length : w'.ifaces.length = w.ifaces.length)
    (tables : ∀ kind, TableKept (w.index jhash (w'.table kind)) (w.table kind) (w'.table kind))
    (waits : ∀ node ∈ w'.rcu, w.Owned node.2) (gates : ∀ p ∈ w'.meshPaths.knownGates, w.Owned p) (noGates : w'.mppPaths.knownGates = [])
    (numGates : ∀ s n, w'.num s = some n → n = (w'.meshPaths.knownGates.countP (fun p => w.owner p == some s) : Int)) :
    Sound jhash w' := by
  have owned {p : Nat} : w'.Owned p ↔ w.Owned p := owned_iff key length
  refine ⟨fun kind => (tables kind).sized,fun kind => ?_,fun kind => ?_,fun kind p member => ?_,fun node member => owned.mpr (waits node member),
    fun p member => owned.mpr (gates p member),noGates,fun kind => (tables kind).entries,?_⟩
  · rw [index_of_key key ifindex]
    exact (tables kind).placed
  · rw [key]
    obtain ⟨_,perm,sub⟩ := (tables kind).nodes
    exact ((perm.map w.key).nodup_iff).mp ((sound.unique kind).sublist (sub.map w.key))
  · exact owned.mpr (sound.owned kind p ((tables kind).nodes.subset member))
  · rw [owner_of_key key]
    exact numGates

theorem Sound.table (sound : Sound jhash w) (kind : Kind) :
    TableKept (w.index jhash (w.table kind)) (w.table kind) (w.table kind) :=
  ⟨sound.sized kind,sound.placed kind,List.Subperm.refl _,sound.entries kind⟩

section
variable (same : Same w w')
include same

theorem Same.owner : w'.owner = w.owner := owner_of_key same.key

theorem Same.meshPaths : w'.meshPaths = w.meshPaths := congrFun same.table .paths

theorem Same.mppPaths : w'.mppPaths = w.mppPaths := congrFun same.table .mpp

theorem Same.sound (sound : Sound jhash w) : Sound jhash w' := by
  refine sound_of_tables sound same.key same.ifindex same.length (fun kind => ?_) ?_ ?_ ?_ ?_
  · rw [same.table]
    exact sound.table kind
  · rw [same.rcu]
    exact sound.waits
  · rw [same.meshPaths]
    exact sound.gates
  · rw [same.mppPaths]
    exact sound.noGates
  · rw [same.num,same.meshPaths]
    exact sound.numGates

theorem Same.inTable (s : Nat) : w'.inTable s = w.inTable s := by
  unfold World.inTable
  rw [same.table,same.owner]

theorem Same.waiting (s : Nat) : w'.waiting s = w.waiting s := by
  unfold World.waiting
  rw [same.rcu,same.owner]

end

-- How far the counter is off: each operation is told by what it does to this.
def World.drift (w : World) (s : Nat) : Option Int := (w.mpaths s).map fun n => n - (w.inTable s + w.waiting s : Int)

theorem accounted_iff (w : World) : Accounted w ↔ ∀ s d, w.drift s = some d → d = 0 := by
  constructor
  · intro accounted s d found
    obtain ⟨n,there,rfl⟩ := map_eq_some_iff.mp found
    obtain ⟨iface,present,rfl⟩ := map_eq_some_iff.mp there
    rw [accounted s iface present]
    omega
  · intro none s iface found
    have zero := none s (iface.mpaths - (w.inTable s + w.waiting s : Int)) (by simp [World.drift,World.mpaths,found])
    omega

theorem drift_of (mpaths : w'.mpaths = w.mpaths) (sum : ∀ s, w'.inTable s + w'.waiting s = w.inTable s + w.waiting s) :
    w'.drift = w.drift := by
  funext s
  unfold World.drift
  rw [mpaths]
  congr 1
  funext n
  have same := sum s
  omega

theorem Same.drift (same : Same w w') (mpaths : w'.mpaths = w.mpaths) : w'.drift = w.drift :=
  drift_of mpaths fun s => by rw [same.inTable,same.waiting]

theorem drift_accounted (drift : w'.drift = w.drift) : Accounted w' ↔ Accounted w := by
  rw [accounted_iff,accounted_iff,drift]

theorem changed_unaccounted (accounted : Accounted w) (inside : s < w.ifaces.length)
    (drift : w'.drift s = (w.drift s).map (· + change)) (change' : change ≠ 0) : ¬Accounted w' := by
  intro accounted'
  rw [accounted_iff] at accounted accounted'
  have present : w.drift s = some (w.ifaces[s].mpaths - (w.inTable s + w.waiting s : Int)) := by
    simp [World.drift,World.mpaths,inside]
  have zero := accounted s _ present
  have zero' := accounted' s (w.ifaces[s].mpaths - (w.inTable s + w.waiting s : Int) + change) (by rw [drift,present]; rfl)
  omega

section frames

section
variable (m' : MeshPath) (found : w.paths[p]? = some m) (sdata : m'.sdata = m.sdata) (dst : m'.dst = m.dst)
include found sdata dst

theorem key_setPath : (w.setPath p m').key = w.key := by
  funext q
  unfold World.key World.setPath
  by_cases same : p = q
  · subst same
    rw [List.getElem?_set_self (List.getElem?_eq_some_iff.mp found).1,found]
    simp [sdata,dst]
  · rw [List.getElem?_set_ne same]

theorem setPath_same : Same w (w.setPath p m') :=
  ⟨key_setPath m' found sdata dst,rfl,rfl,rfl,rfl,rfl⟩

end

section
variable (found : w.ifaces[s]? = some iface)
include found

theorem setIface_get (iface' : Iface) (f : Iface → α) (t : Nat) :
    ((w.setIface s iface').ifaces[t]?).map f = if s = t then some (f iface') else (w.ifaces[t]?).map f := by
  unfold World.setIface
  by_cases here : s = t
  · subst here
    rw [List.getElem?_set_self (List.getElem?_eq_some_iff.mp found).1,if_pos rfl]
    rfl
  · rw [List.getElem?_set_ne here,if_neg here]

theorem setIface_map (same : f iface' = f iface) (t : Nat) :
    ((w.setIface s iface').ifaces[t]?).map f = (w.ifaces[t]?).map f := by
  rw [setIface_get found]
  split
  · rename_i here
    subst here
    rw [found,same]
    rfl
  · rfl

theorem setIface_ifindex (ifindex : iface'.ifindex = iface.ifindex) : (w.setIface s iface').ifindex = w.ifindex := by
  funext t
  unfold World.ifindex
  rw [setIface_map found ifindex]

theorem setIface_same (ifindex : iface'.ifindex = iface.ifindex)
    (numGates : iface'.numGates = iface.numGates) : Same w (w.setIface s iface') := by
  refine ⟨rfl,rfl,rfl,setIface_ifindex found ifindex,?_,List.length_set⟩
  funext t
  unfold World.num
  rw [setIface_map found numGates]

theorem setIface_mpaths (mpaths : iface'.mpaths = iface.mpaths) : (w.setIface s iface').mpaths = w.mpaths := by
  funext t
  exact setIface_map found mpaths t

end

theorem queueGrow_same (w : World) (kind : Kind) (s : Nat) :
    Same w (w.queueGrow kind s) ∧ (w.queueGrow kind s).mpaths = w.mpaths := by
  unfold World.queueGrow
  split
  · exact ⟨Same.refl w,rfl⟩
  · rename_i iface found
    cases kind with
    | paths | mpp => exact ⟨setIface_same found rfl rfl,setIface_mpaths found rfl⟩

theorem checkExpired_same (w : World) (p : Nat) : Same w (w.checkExpired p) ∧ (w.checkExpired p).mpaths = w.mpaths := by
  unfold World.checkExpired
  split
  · exact ⟨Same.refl w,rfl⟩
  · rename_i m found
    split
    · exact ⟨setPath_same _ found rfl rfl,rfl⟩
    · exact ⟨Same.refl w,rfl⟩

theorem addMpaths_same (w : World) (s : Nat) (change : Int) : Same w (w.addMpaths s change) := by
  unfold World.addMpaths
  split
  · exact Same.refl w
  · rename_i iface found
    exact setIface_same found rfl rfl

theorem mpaths_addMpaths (w : World) (s : Nat) (change : Int) (t : Nat) :
    (w.addMpaths s change).mpaths t = if s = t then (w.mpaths t).map (· + change) else w.mpaths t := by
  unfold World.addMpaths
  split
  · rename_i missing
    split
    · rename_i same
      subst same
      simp [World.mpaths,missing]
    · rfl
  · rename_i iface found
    unfold World.mpaths
    rw [setIface_get found]
    split
    · rename_i same
      subst same
      rw [found]
      rfl
    · rfl

end frames

theorem table_setTable (w : World) (tbl : Table) (kind kind' : Kind) :
    (w.setTable tbl kind).table kind' = if kind' = kind then tbl else w.table kind' := by
  cases kind <;> cases kind' <;> rfl

theorem meshTableHash_lt (addr : EthAddr) (ifindex : UInt32) (tbl : Table) :
    meshTableHash jhash addr ifindex tbl < 2 ^ tbl.sizeOrder := by
  unfold meshTableHash
  rw [Nat.and_two_pow_sub_one_eq_mod]
  exact Nat.mod_lt _ (Nat.two_pow_pos _)

variable (jhash : UInt32 → UInt32 → UInt32 → UInt32) in
theorem index_lt (w : World) (tbl : Table) (p : Nat) : w.index jhash tbl p < 2 ^ tbl.sizeOrder := by
  unfold World.index
  cases w.paths[p]? with
  | none => exact Nat.two_pow_pos _
  | some => exact meshTableHash_lt _ _ _

theorem owner_get (found : w.paths[p]? = some m) : w.owner p = some m.sdata := by
  simp [World.owner,World.key,found]

theorem owned_lt (owned : w.Owned p) : p < w.paths.length := by
  obtain ⟨s,found,_⟩ := owned
  by_contra outside
  have missing : w.paths[p]? = none := List.getElem?_eq_none (by omega)
  simp [World.owner,World.key,missing] at found

section find

theorem is_iff : w.is s dst p = true ↔ w.key p = some (s,dst) := by
  unfold World.is World.key
  cases w.paths[p]? with
  | none => simp
  | some => simp [Prod.ext_iff]

theorem find_node (found : w.find jhash kind s dst = some p) : p ∈ (w.table kind).nodes ∧ w.key p = some (s,dst) := by
  obtain ⟨member,right⟩ := find_some found
  exact ⟨member,is_iff.mp right⟩

theorem find_missing (sound : Sound jhash w) (missing : w.find jhash kind s dst = none) :
    ∀ p ∈ (w.table kind).nodes, w.key p ≠ some (s,dst) := by
  intro p member same
  have none := find_none (sound.placed kind) (fun q _ right => by rw [index_key,is_iff.mp right]; rfl) missing p member
  rw [is_iff.mpr same] at none
  cases none

end find

section inserts

variable (jhash : UInt32 → UInt32 → UInt32 → UInt32) in
theorem key_insertNode (w : World) (kind : Kind) (m : MeshPath) (q : Nat) : (w.insertNode jhash kind m).key q =
      if q < w.paths.length then w.key q else if q = w.paths.length then some (m.sdata,m.dst) else none := by
  have paths : (w.insertNode jhash kind m).paths = w.paths ++ [m] := by cases kind <;> rfl
  unfold World.key
  rw [paths,List.getElem?_append]
  split
  · rfl
  · split
    · rename_i last
      simp [last]
    · rw [List.getElem?_eq_none (by rw [List.length_singleton]; omega)]
      rfl

theorem table_insertNode (w : World) (kind kind' : Kind) (m : MeshPath) :
    (w.insertNode jhash kind m).table kind' = if kind' = kind then
      {w.table kind with
        hashBuckets := addHead (w.table kind).hashBuckets
          (meshTableHash jhash m.dst (w.ifindex m.sdata) (w.table kind)) w.paths.length,
        entries := (w.table kind).entries + 1} else w.table kind' := by
  cases kind <;> cases kind' <;> rfl

variable (jhash : UInt32 → UInt32 → UInt32 → UInt32) in
theorem insertNode_frame (w : World) (kind : Kind) (m : MeshPath) :
    (w.insertNode jhash kind m).ifaces = w.ifaces ∧ (w.insertNode jhash kind m).rcu = w.rcu ∧
      (w.insertNode jhash kind m).meshPaths.knownGates = w.meshPaths.knownGates ∧
      (w.insertNode jhash kind m).mppPaths.knownGates = w.mppPaths.knownGates := by
  cases kind <;> exact ⟨rfl,rfl,rfl,rfl⟩

theorem nodes_insertNode (sound : Sound jhash w) (kind : Kind) (m : MeshPath) :
    (((w.insertNode jhash kind m).table kind).nodes).Perm (w.paths.length :: (w.table kind).nodes) := by
  rw [table_insertNode,if_pos rfl]
  refine addHead_perm ?_ _
  rw [sound.sized kind]
  exact meshTableHash_lt _ _ _

theorem insertNode_old (old : p < w.paths.length) :
    (w.insertNode jhash kind m).key p = w.key p ∧ (w.insertNode jhash kind m).owner p = w.owner p := by
  have same := key_insertNode jhash w kind m p
  rw [if_pos old] at same
  exact ⟨same,by unfold World.owner; rw [same]⟩

theorem insertNode_owned (owned : w.Owned p) : (w.insertNode jhash kind m).Owned p := by
  obtain ⟨s,owner,inside⟩ := owned
  have old := owned_lt ⟨s,owner,inside⟩
  exact ⟨s,(insertNode_old old).2.trans owner,by rw [(insertNode_frame jhash w kind m).1]; exact inside⟩

theorem insertNode_new (w : World) (kind : Kind) (m : MeshPath) :
    (w.insertNode jhash kind m).key w.paths.length = some (m.sdata,m.dst) ∧
      (w.insertNode jhash kind m).owner w.paths.length = some m.sdata := by
  have new := key_insertNode jhash w kind m w.paths.length
  rw [if_neg (Nat.lt_irrefl _),if_pos rfl] at new
  exact ⟨new,by unfold World.owner; rw [new]; rfl⟩

theorem insertNode_sound (sound : Sound jhash w) (inside : m.sdata < w.ifaces.length)
    (fresh : ∀ p ∈ (w.table kind).nodes, w.key p ≠ some (m.sdata,m.dst)) :
    Sound jhash (w.insertNode jhash kind m) := by
  obtain ⟨ifaces,rcu,knownGates,mppGates⟩ := insertNode_frame jhash w kind m
  obtain ⟨ifindex,num,_⟩ := counts_of_ifaces ifaces
  have perm := nodes_insertNode sound kind m
  have other : ∀ kind', kind' ≠ kind → (w.insertNode jhash kind m).table kind' = w.table kind' := by
    intro kind' different
    rw [table_insertNode,if_neg different]
  have index : ∀ tbl p, p < w.paths.length →
      (w.insertNode jhash kind m).index jhash tbl p = w.index jhash tbl p := by
    intro _ p old
    rw [index_key,index_key,(insertNode_old old).1,ifindex]
  constructor
  · intro kind'
    by_cases same : kind' = kind
    · subst same
      rw [table_insertNode,if_pos rfl]
      exact (length_addHead ..).trans (sound.sized kind')
    · rw [other kind' same]
      exact sound.sized kind'
  · intro kind'
    have kept := placed_congr (fun p member => index (w.table kind') p (owned_lt (sound.owned kind' p member))) (sound.placed kind')
    by_cases same : kind' = kind
    · subst same
      rw [table_insertNode,if_pos rfl]
      refine placed_addHead kept ?_ ?_
      · rw [sound.sized kind']
        exact meshTableHash_lt _ _ _
      · rw [index_key,(insertNode_new w kind' m).1,ifindex]
        rfl
    · rw [other kind' same]
      exact kept
  · intro kind'
    have kept : (w.table kind').nodes.map (w.insertNode jhash kind m).key = (w.table kind').nodes.map w.key :=
      List.map_congr_left fun p member => (insertNode_old (owned_lt (sound.owned kind' p member))).1
    by_cases same : kind' = kind
    · subst same
      rw [(perm.map _).nodup_iff,List.map_cons,List.nodup_cons,kept]
      refine ⟨?_,sound.unique kind'⟩
      rw [(insertNode_new w kind' m).1]
      intro member
      obtain ⟨p,there,key⟩ := List.mem_map.mp member
      exact fresh p there key
    · rw [other kind' same,kept]
      exact sound.unique kind'
  · intro kind' p member
    by_cases same : kind' = kind
    · subst same
      rcases List.mem_cons.mp (perm.mem_iff.mp member) with rfl | old
      · exact ⟨m.sdata,(insertNode_new w kind' m).2,by rw [ifaces]; exact inside⟩
      · exact insertNode_owned (sound.owned kind' p old)
    · rw [other kind' same] at member
      exact insertNode_owned (sound.owned kind' p member)
  · intro node member
    rw [rcu] at member
    exact insertNode_owned (sound.waits node member)
  · intro p member
    rw [knownGates] at member
    exact insertNode_owned (sound.gates p member)
  · rw [mppGates]
    exact sound.noGates
  · intro kind'
    by_cases same : kind' = kind
    · subst same
      rw [perm.length_eq,List.length_cons,table_insertNode,if_pos rfl]
      rw [sound.entries kind']
      rfl
    · rw [other kind' same]
      exact sound.entries kind'
  intro s n found
  rw [num] at found
  rw [knownGates,sound.numGates s n found]
  congr 1
  apply List.countP_congr
  intro p member
  rw [(insertNode_old (owned_lt (sound.gates p member))).2]

end inserts

section counts

theorem insertNode_inTable (sound : Sound jhash w) (kind : Kind) (m : MeshPath) (s : Nat) :
    (w.insertNode jhash kind m).inTable s = w.inTable s + if kind = .paths ∧ m.sdata = s then 1 else 0 := by
  have kept : ∀ nodes : List Nat, (∀ p ∈ nodes, w.Owned p) →
      nodes.countP (fun p => (w.insertNode jhash kind m).owner p == some s) = nodes.countP fun p => w.owner p == some s := by
    intro nodes owned
    apply List.countP_congr
    intro p member
    rw [(insertNode_old (owned_lt (owned p member))).2]
  unfold World.inTable
  cases kind with
  | paths =>
    have perm := nodes_insertNode sound .paths m
    have counted := perm.countP_eq fun p => (w.insertNode jhash .paths m).owner p == some s
    rw [List.countP_cons,kept _ (sound.owned .paths),(insertNode_new w .paths m).2] at counted
    simpa using counted
  | mpp =>
    have same := kept (w.table .paths).nodes (sound.owned .paths)
    exact same

theorem insertNode_waiting (sound : Sound jhash w) (kind : Kind) (m : MeshPath) (s : Nat) :
    (w.insertNode jhash kind m).waiting s = w.waiting s := by
  unfold World.waiting
  rw [(insertNode_frame jhash w kind m).2.1]
  apply List.countP_congr
  intro node member
  rw [(insertNode_old (owned_lt (sound.waits node member))).2]

theorem insertNode_mpaths (w : World) (kind : Kind) (m : MeshPath) : (w.insertNode jhash kind m).mpaths = w.mpaths :=
  (counts_of_ifaces (insertNode_frame jhash w kind m).1).2.2

end counts

section unlinks

theorem table_unlink (w : World) (kind kind' : Kind) (p : Nat) : (w.unlink kind p).table kind' = if kind' = kind then
    {w.table kind with
      hashBuckets := HashChains.unlink (w.table kind).hashBuckets p,
      entries := (w.table kind).entries - 1} else w.table kind' := by
  cases kind <;> cases kind' <;> rfl

theorem unlink_frame (w : World) (kind : Kind) (p : Nat) : (w.unlink kind p).key = w.key ∧ (w.unlink kind p).owner = w.owner ∧
    (w.unlink kind p).ifaces = w.ifaces ∧ (w.unlink kind p).rcu = w.rcu ++ [(kind,p)] := by
  cases kind <;> exact ⟨rfl,rfl,rfl,rfl⟩

theorem unlink_nodes (w : World) (kind : Kind) (p : Nat) :
    ((w.unlink kind p).table kind).nodes = (w.table kind).nodes.filter (· ≠ p) := by
  rw [table_unlink,if_pos rfl]
  exact unlink_flatten _ _

theorem nodes_nodup (sound : Sound jhash w) (kind : Kind) : (w.table kind).nodes.Nodup :=
  (sound.unique kind).of_map

theorem unlink_sound (sound : Sound jhash w) (member : p ∈ (w.table kind).nodes) :
    Sound jhash (w.unlink kind p) := by
  obtain ⟨key,_,ifaces,rcu⟩ := unlink_frame w kind p
  obtain ⟨ifindex,num,_⟩ := counts_of_ifaces ifaces
  have knownGates : (w.unlink kind p).meshPaths.knownGates = w.meshPaths.knownGates := by
    cases kind <;> rfl
  refine sound_of_tables sound key ifindex (congrArg List.length ifaces) (fun kind' => ?_) (fun node there => ?_) ?_ ?_ ?_
  · by_cases same : kind' = kind
    · subst same
      have less := length_unlink_flatten (nodes_nodup sound kind') member
      have counted := sound.entries kind'
      have nodes := unlink_nodes w kind' p
      rw [table_unlink,if_pos rfl] at nodes ⊢
      refine ⟨(length_unlink ..).trans (sound.sized kind'),placed_unlink (sound.placed kind') p,?_,?_⟩
      · rw [nodes]
        exact List.filter_sublist.subperm
      · unfold Table.nodes at counted ⊢
        dsimp only
        omega
    · rw [table_unlink,if_neg same]
      exact sound.table kind'
  · rw [rcu] at there
    rcases List.mem_append.mp there with old | new
    · exact sound.waits node old
    · cases List.mem_singleton.mp new
      exact sound.owned kind p member
  · rw [knownGates]
    exact sound.gates
  · cases kind <;> exact sound.noGates
  · rw [num,knownGates]
    exact sound.numGates

theorem unlink_drift (sound : Sound jhash w) (member : p ∈ (w.table kind).nodes) :
    (w.unlink kind p).drift = w.drift := by
  obtain ⟨_,owner,ifaces,rcu⟩ := unlink_frame w kind p
  refine drift_of (counts_of_ifaces ifaces).2.2 ?_
  intro s
  unfold World.inTable World.waiting
  rw [owner,rcu,List.countP_append,List.countP_singleton]
  cases kind with
  | paths =>
    have erased : ((w.unlink .paths p).table .paths).nodes = (w.table .paths).nodes.erase p := by
      rw [unlink_nodes,(nodes_nodup sound .paths).erase_eq_filter]
      congr 1
      funext q
      by_cases same : q = p <;> simp [same]
    have counted := (List.perm_cons_erase member).countP_eq fun q => w.owner q == some s
    rw [List.countP_cons] at counted
    rw [erased,counted]
    simp only [beq_self_eq_true,Bool.true_and]
    omega
  | mpp =>
    rfl

end unlinks

section gates

theorem num_addGates (w : World) (s : Nat) (change : Int) (t : Nat) :
    (w.addGates s change).num t = if s = t then (w.num t).map (· + change) else w.num t := by
  unfold World.addGates
  split
  · rename_i missing
    split
    · rename_i same
      subst same
      simp [World.num,missing]
    · rfl
  · rename_i iface found
    unfold World.num
    rw [setIface_get found]
    split
    · rename_i same
      subst same
      rw [found]
      rfl
    · rfl

theorem addGates_frame (w : World) (s : Nat) (change : Int) : (w.addGates s change).ifindex = w.ifindex ∧
    (w.addGates s change).mpaths = w.mpaths ∧ (w.addGates s change).ifaces.length = w.ifaces.length ∧
    (w.addGates s change).paths = w.paths ∧ (w.addGates s change).table = w.table ∧ (w.addGates s change).rcu = w.rcu := by
  unfold World.addGates
  split
  · exact ⟨rfl,rfl,rfl,rfl,rfl,rfl⟩
  · rename_i iface found
    exact ⟨setIface_ifindex found rfl,setIface_mpaths found rfl,List.length_set,rfl,rfl,rfl⟩

theorem gates_sound (gates : List Nat) (sound : Sound jhash w) (key : w'.key = w.key) (rcu : w'.rcu = w.rcu)
    (ifindex : w'.ifindex = w.ifindex) (length : w'.ifaces.length = w.ifaces.length)
    (meshPaths : w'.meshPaths = {w.meshPaths with knownGates := gates}) (mppPaths : w'.mppPaths = w.mppPaths)
    (owned : ∀ p ∈ gates, w.Owned p)
    (numGates : ∀ s n, w'.num s = some n → n = (gates.countP (fun p => w.owner p == some s) : Int)) :
    Sound jhash w' := by
  refine sound_of_tables sound key ifindex length (fun kind => ?_) ?_ ?_ ?_ ?_
  · cases kind with
    | paths =>
      show TableKept (w.index jhash w'.meshPaths) w.meshPaths w'.meshPaths
      rw [meshPaths]
      exact ⟨sound.sized .paths,sound.placed .paths,List.Subperm.refl _,sound.entries .paths⟩
    | mpp =>
      show TableKept (w.index jhash w'.mppPaths) w.mppPaths w'.mppPaths
      rw [mppPaths]
      exact sound.table .mpp
  · rw [rcu]
    exact sound.waits
  · rw [meshPaths]
    exact owned
  · rw [mppPaths]
    exact sound.noGates
  · rw [meshPaths]
    exact numGates

theorem gates_drift (gates : List Nat) (key : w'.key = w.key) (rcu : w'.rcu = w.rcu) (mpaths : w'.mpaths = w.mpaths)
    (meshPaths : w'.meshPaths = {w.meshPaths with knownGates := gates}) : w'.drift = w.drift := by
  refine drift_of mpaths ?_
  intro s
  unfold World.inTable World.waiting
  rw [owner_of_key key,rcu]
  show List.countP _ w'.meshPaths.nodes + _ = _
  rw [meshPaths]
  rfl

theorem addGate_sound (sound : Sound jhash w) (owned : w.Owned p) (found : w.paths[p]? = some m) (alloc : Bool) :
    Sound jhash (w.meshPathAddGate p m alloc).1 ∧ (w.meshPathAddGate p m alloc).1.drift = w.drift := by
  unfold World.meshPathAddGate
  split
  · exact ⟨sound,rfl⟩
  split
  · exact ⟨sound,rfl⟩
  obtain ⟨ifindex,mpaths,length,paths,table,rcu⟩ := addGates_frame (w.setPath p {m with isGate := true}) m.sdata 1
  have key : ((w.setPath p {m with isGate := true}).addGates m.sdata 1).key = w.key := by
    rw [← key_setPath {m with isGate := true} found rfl rfl]
    unfold World.key
    rw [paths]
  have meshPaths := congrFun table .paths
  have mppPaths := congrFun table .mpp
  dsimp only [World.table] at meshPaths mppPaths
  refine ⟨gates_sound (p :: w.meshPaths.knownGates) sound key rcu ifindex length ?_ mppPaths ?_ ?_,
    gates_drift (p :: w.meshPaths.knownGates) key rcu mpaths ?_⟩
  · dsimp only
    rw [meshPaths]
    rfl
  · intro q member
    rcases List.mem_cons.mp member with rfl | old
    · exact owned
    · exact sound.gates q old
  · intro s n there
    change ((w.setPath p {m with isGate := true}).addGates m.sdata 1).num s = some n at there
    rw [num_addGates] at there
    rw [List.countP_cons,owner_get found]
    by_cases same : m.sdata = s
    · rw [if_pos same] at there
      obtain ⟨old,before,rfl⟩ := map_eq_some_iff.mp there
      rw [sound.numGates s old before]
      simp [same]
    · rw [if_neg same] at there
      rw [sound.numGates s n there]
      simp [same]
  · dsimp only
    rw [meshPaths]
    rfl

theorem gateDel_sound (sound : Sound jhash w) (found : w.paths[p]? = some m) (kind : Kind) :
    Sound jhash (w.meshGateDel kind p m) ∧ (w.meshGateDel kind p m).drift = w.drift := by
  unfold World.meshGateDel
  dsimp only
  split
  · rename_i listed
    cases kind with
    | mpp =>
      rw [World.table,sound.noGates] at listed
      cases listed
    | paths =>
      let next := w.setTable {w.meshPaths with knownGates := w.meshPaths.knownGates.erase p} .paths
      obtain ⟨ifindex,mpaths,length,paths,table,rcu⟩ := addGates_frame next m.sdata (-1)
      have there : (next.addGates m.sdata (-1)).paths[p]? = some m := by
        rw [paths]
        exact found
      have key : ((next.addGates m.sdata (-1)).setPath p {m with isGate := false}).key = w.key := by
        rw [key_setPath {m with isGate := false} there rfl rfl]
        unfold World.key
        rw [paths]
        rfl
      have meshPaths := congrFun table .paths
      have mppPaths := congrFun table .mpp
      refine ⟨gates_sound (w.meshPaths.knownGates.erase p) sound key rcu ifindex length meshPaths mppPaths ?_ ?_,
        gates_drift (w.meshPaths.knownGates.erase p) key rcu mpaths meshPaths⟩
      · intro q member
        exact sound.gates q (List.mem_of_mem_erase member)
      intro s n after
      change (next.addGates m.sdata (-1)).num s = some n at after
      rw [num_addGates] at after
      have member : p ∈ w.meshPaths.knownGates := by simpa [World.table] using listed
      have counted := (List.perm_cons_erase member).countP_eq fun q => w.owner q == some s
      rw [List.countP_cons,owner_get found] at counted
      by_cases same : m.sdata = s
      · rw [if_pos same] at after
        obtain ⟨old,before,rfl⟩ := map_eq_some_iff.mp after
        rw [sound.numGates s old before,counted,same]
        rw [beq_self_eq_true,if_pos rfl,Int.natCast_add,Int.natCast_one,Int.add_neg_cancel_right]
      · rw [if_neg same] at after
        rw [sound.numGates s n after,counted]
        simp [same]
  · exact ⟨sound,rfl⟩

end gates

section deletes

structure Kept (jhash : UInt32 → UInt32 → UInt32 → UInt32) (w w' : World) : Prop where
  sound : Sound jhash w'
  drift : w'.drift = w.drift

theorem Kept.trans (first : Kept jhash w w') (second : Kept jhash w' w'') : Kept jhash w w'' :=
  ⟨second.sound,second.drift.trans first.drift⟩

theorem Same.kept (same : Same w w') (mpaths : w'.mpaths = w.mpaths) (sound : Sound jhash w) : Kept jhash w w' :=
  ⟨same.sound sound,same.drift mpaths⟩

theorem nodes_gateDel (w : World) (kind kind' : Kind) (p : Nat) (m : MeshPath) :
    ((w.meshGateDel kind p m).table kind').nodes = (w.table kind').nodes := by
  unfold World.meshGateDel
  dsimp only
  split
  · have table := (addGates_frame (w.setTable {w.table kind with knownGates := (w.table kind).knownGates.erase p} kind)
      m.sdata (-1)).2.2.2.2.1
    show (World.table (World.addGates _ _ _) kind').nodes = _
    rw [table,table_setTable]
    split
    · rename_i same
      rw [same]
      rfl
    · rfl
  · rfl

theorem del_kept (sound : Sound jhash w) (member : p ∈ (w.table kind).nodes) : Kept jhash w (w.del kind p) := by
  unfold World.del
  split
  · exact ⟨sound,rfl⟩
  rename_i m found
  dsimp only
  have resolving := setPath_same {m with flags.resolving := true} found rfl rfl
  have first := resolving.kept rfl sound
  have there : (w.setPath p {m with flags.resolving := true}).paths[p]? = some {m with flags.resolving := true} :=
    List.getElem?_set_self (List.getElem?_eq_some_iff.mp found).1
  split
  · obtain ⟨gone,drift⟩ := gateDel_sound first.sound there kind
    have listed : p ∈ ((World.meshGateDel (w.setPath p {m with flags.resolving := true}) kind p
        {m with flags.resolving := true}).table kind).nodes := by
      rw [nodes_gateDel]
      exact member
    exact (first.trans ⟨gone,drift⟩).trans ⟨unlink_sound gone listed,unlink_drift gone listed⟩
  · exact first.trans ⟨unlink_sound first.sound member,unlink_drift first.sound member⟩

theorem nodes_del (w : World) (kind : Kind) (p q : Nat) (other : q ≠ p) (member : q ∈ (w.table kind).nodes) :
    q ∈ ((w.del kind p).table kind).nodes := by
  unfold World.del
  split
  · exact member
  · rw [unlink_nodes]
    refine List.mem_filter.mpr ⟨?_,by simpa using other⟩
    split
    · rw [nodes_gateDel]
      exact member
    · exact member

theorem meshPathDel_kept (sound : Sound jhash w) (s : Nat) (dst : EthAddr) :
    Kept jhash w (w.meshPathDel jhash s dst).1 := by
  unfold World.meshPathDel
  split
  · exact ⟨sound,rfl⟩
  · rename_i p found
    exact del_kept sound (find_node found).1

theorem foldl_listed (f : World → Nat → World) (kind : Kind)
    (visited : ∀ now p, Sound jhash now → p ∈ (now.table kind).nodes → Kept jhash now (f now p) ∧
      ∀ q ∈ (now.table kind).nodes, q ≠ p → q ∈ ((f now p).table kind).nodes)
    (nodes : List Nat) (nodup : nodes.Nodup) (listed : ∀ q ∈ nodes, q ∈ (w.table kind).nodes) (sound : Sound jhash w) :
    Kept jhash w (nodes.foldl f w) := by
  induction nodes generalizing w with
  | nil => exact ⟨sound,rfl⟩
  | cons p rest ih =>
    obtain ⟨first,others⟩ := List.nodup_cons.mp nodup
    obtain ⟨kept,stay⟩ := visited w p sound (listed p (by simp))
    refine kept.trans (ih others ?_ kept.sound)
    intro q member
    exact stay q (listed q (by simp [member])) fun same => first (same ▸ member)

theorem flush_kept (sound : Sound jhash w) (kind : Kind) (test : MeshPath → Bool) :
    Kept jhash w (w.flush kind test) := by
  refine foldl_listed _ kind ?_ _ (nodes_nodup sound kind) (fun q member => member) sound
  intro now p sound here
  dsimp only
  split
  · exact ⟨⟨sound,rfl⟩,fun q member _ => member⟩
  · split
    · exact ⟨del_kept sound here,fun q member apart => nodes_del now kind p q apart member⟩
    · exact ⟨⟨sound,rfl⟩,fun q member _ => member⟩

theorem foldl_kept (f : World → Nat → World) (kept : ∀ now p, Sound jhash now → Kept jhash now (f now p))
    (nodes : List Nat) (sound : Sound jhash w) : Kept jhash w (nodes.foldl f w) := by
  induction nodes generalizing w with
  | nil => exact ⟨sound,rfl⟩
  | cons p rest ih =>
    have first := kept w p sound
    exact first.trans (ih first.sound)

theorem expire_kept (sound : Sound jhash w) (s : Nat) : Kept jhash w (w.meshPathExpire jhash s) := by
  refine foldl_kept _ ?_ _ sound
  intro _ p sound
  dsimp only
  split
  · exact ⟨sound,rfl⟩
  · rename_i m found
    split
    · exact meshPathDel_kept sound m.sdata m.dst
    · exact ⟨sound,rfl⟩

end deletes

section steps

theorem larger_nodes (jhash : UInt32 → UInt32 → UInt32 → UInt32) (w : World) (larger : Table) (nodes : List Nat) :
    (rehash (w.index jhash larger) (List.replicate (2 ^ larger.sizeOrder) []) nodes).flatten.Perm nodes := by
  have all := rehash_perm (List.replicate (2 ^ larger.sizeOrder) []) nodes
    (fun p => by rw [List.length_replicate]; exact index_lt jhash w larger p)
  simpa using all

theorem grow_kept (sound : Sound jhash w) (kind : Kind) (hashRnd : UInt32) (alloc : Bool) :
    Kept jhash w (w.tableGrow jhash kind hashRnd alloc) := by
  unfold World.tableGrow
  dsimp only
  split
  · exact ⟨sound,rfl⟩
  let larger := {w.table kind with sizeOrder := (w.table kind).sizeOrder + 1,hashRnd := hashRnd}
  let buckets := rehash (w.index jhash larger) (List.replicate (2 ^ larger.sizeOrder) []) (w.table kind).nodes
  have perm : buckets.flatten.Perm (w.table kind).nodes := larger_nodes jhash w larger (w.table kind).nodes
  have table := table_setTable w {larger with hashBuckets := buckets} kind
  generalize grown : w.setTable {larger with hashBuckets := buckets} kind = after at *
  have nodes : ∀ kind', ((after.table kind').nodes).Perm (w.table kind').nodes := by
    intro kind'
    rw [table]
    split
    · rename_i same
      rw [same]
      exact perm
    · exact .refl _
  have key : after.key = w.key := by
    rw [← grown]
    cases kind <;> rfl
  have frame : after.ifaces = w.ifaces ∧ after.rcu = w.rcu ∧ after.meshPaths.knownGates = w.meshPaths.knownGates ∧
      after.mppPaths.knownGates = w.mppPaths.knownGates := by
    rw [← grown]
    cases kind <;> exact ⟨rfl,rfl,rfl,rfl⟩
  obtain ⟨ifaces,rcu,knownGates,mppGates⟩ := frame
  obtain ⟨ifindex,num,mpaths⟩ := counts_of_ifaces ifaces
  constructor
  · refine sound_of_tables sound key ifindex (congrArg List.length ifaces) (fun kind' => ?_) ?_ ?_ (mppGates.trans sound.noGates) ?_
    · have entries : (after.table kind').entries = ((after.table kind').nodes.length : Int) := by
        rw [(nodes kind').length_eq,← sound.entries kind',table]
        split
        · rename_i same
          rw [same]
        · rfl
      refine ⟨?_,?_,(nodes kind').subperm,entries⟩
      · rw [table]
        split
        · exact (length_rehash ..).trans List.length_replicate
        · exact sound.sized kind'
      · rw [table]
        split
        · refine placed_rehash (placed_replicate _ _) _ ?_
          intro q
          rw [List.length_replicate]
          exact index_lt jhash w larger q
        · exact sound.placed kind'
    · rw [rcu]
      exact sound.waits
    · rw [knownGates]
      exact sound.gates
    · rw [num,knownGates]
      exact sound.numGates
  · refine drift_of mpaths ?_
    intro s
    unfold World.inTable World.waiting
    rw [rcu,owner_of_key key,(nodes .paths).countP_eq]

theorem insert_drift (sound : Sound jhash w) (kind : Kind) (m : MeshPath) (s : Nat) :
    (w.insert jhash kind m).drift s = (w.drift s).map (· + if kind = .paths ∧ m.sdata = s then -1 else 0) := by
  have grown : (w.insert jhash kind m).drift = (w.insertNode jhash kind m).drift := by
    unfold World.insert
    dsimp only
    split
    · obtain ⟨same,mpaths⟩ := queueGrow_same (w.insertNode jhash kind m) kind m.sdata
      exact same.drift mpaths
    · rfl
  rw [grown]
  unfold World.drift
  rw [insertNode_mpaths,insertNode_inTable sound,insertNode_waiting sound,map_map]
  congr 1
  funext n
  simp only [Function.comp]
  split
  · push_cast
    omega
  · push_cast
    omega

theorem insert_sound (sound : Sound jhash w) (inside : m.sdata < w.ifaces.length)
    (fresh : ∀ p ∈ (w.table kind).nodes, w.key p ≠ some (m.sdata,m.dst)) : Sound jhash (w.insert jhash kind m) := by
  unfold World.insert
  dsimp only
  split
  · exact (queueGrow_same _ _ _).1.sound (insertNode_sound sound inside fresh)
  · exact insertNode_sound sound inside fresh

theorem map_back (d : Option Int) (change : Int) : (d.map (· + change)).map (· + -change) = d := by
  cases d with
  | none => rfl
  | some n => exact congrArg some (Int.add_neg_cancel_right n change)

theorem drift_addMpaths (w : World) (s : Nat) (change : Int) (t : Nat) :
    (w.addMpaths s change).drift t = if s = t then (w.drift t).map (· + change) else w.drift t := by
  unfold World.drift
  rw [mpaths_addMpaths,(addMpaths_same w s change).inTable,(addMpaths_same w s change).waiting]
  split
  · rw [map_map,map_map]
    congr 1
    funext n
    simp only [Function.comp]
    omega
  · rfl

-- mesh_path_add counts before it has looked the address up.
def World.asksFor (w : World) (s : Nat) (dst : EthAddr) : Prop :=
  ∃ iface p, w.ifaces[s]? = some iface ∧ dst ≠ iface.addr ∧ isMulticastEtherAddr dst = false ∧
    iface.mpaths ≠ meshMaxMpaths ∧ p ∈ w.meshPaths.nodes ∧ w.key p = some (s,dst)

def Event.Fair (w : World) : Event → Prop
  | .pathAdd s dst _ _ => ¬w.asksFor s dst
  | .reclaim j => ∀ p, w.rcu[j]? ≠ some (.mpp,p)
  | _ => True

def Exact (jhash : UInt32 → UInt32 → UInt32 → UInt32) (w w' : World) (e : Event) : Prop :=
  Sound jhash w' ∧ (Accounted w → (Accounted w' ↔ e.Fair w))

theorem Kept.exact (kept : Kept jhash w w') (fair : Event.Fair w e) : Exact jhash w w' e :=
  ⟨kept.sound,fun accounted => ⟨fun _ => fair,fun _ => (drift_accounted kept.drift).mpr accounted⟩⟩

section
variable (sound : Sound jhash w)
include sound

theorem pathAdd_exact (found : w.ifaces[s]? = some iface) (dst : EthAddr) (allocPath allocNode : Bool) :
    Exact jhash w (w.meshPathAdd jhash s iface dst allocPath allocNode).1 (.pathAdd s dst allocPath allocNode) := by
  have inside := (List.getElem?_eq_some_iff.mp found).1
  have asks : ∀ {iface' : Iface}, w.ifaces[s]? = some iface' → iface' = iface := by
    intro iface' there
    exact Option.some.inj (there.symm.trans found)
  unfold World.meshPathAdd
  split
  · rename_i own
    refine Kept.exact ⟨sound,rfl⟩ ?_
    rintro ⟨iface',p,there,notOwn,_⟩
    rw [asks there] at notOwn
    exact notOwn (by simpa using own)
  split
  · rename_i multicast
    refine Kept.exact ⟨sound,rfl⟩ ?_
    rintro ⟨iface',p,there,_,unicast,_⟩
    rw [multicast] at unicast
    cases unicast
  split
  · rename_i most
    refine Kept.exact ⟨sound,rfl⟩ ?_
    rintro ⟨_,p,there,_,_,room,_⟩
    rw [asks there] at room
    exact room (by simpa using most)
  rename_i own unicast room
  have same := addMpaths_same w s 1
  have sound' := same.sound sound
  dsimp only
  split
  · rename_i p there
    refine ⟨sound',fun accounted => ?_⟩
    obtain ⟨member,key⟩ := find_node there
    have asked : w.asksFor s dst := by
      rw [same.table] at member
      rw [same.key] at key
      exact ⟨iface,p,found,by simpa using own,by simpa using unicast,by simpa using room,member,key⟩
    constructor
    · intro still
      have drift := drift_addMpaths w s 1 s
      rw [if_pos rfl] at drift
      exact absurd still (changed_unaccounted accounted inside drift (by decide))
    · intro fair
      exact absurd asked fair
  rename_i missing
  have fresh := find_missing sound' missing
  have fair : Event.Fair w (.pathAdd s dst allocPath allocNode) := by
    rintro ⟨_,p,_,_,_,_,member,key⟩
    rw [← same.key] at key
    refine fresh p ?_ key
    rw [same.table]
    exact member
  split
  · have back := addMpaths_same (w.addMpaths s 1) s (-1)
    refine Kept.exact ⟨back.sound sound',?_⟩ fair
    funext t
    rw [drift_addMpaths,drift_addMpaths]
    split
    · exact map_back _ 1
    · rfl
  have inside' : s < (w.addMpaths s 1).ifaces.length := by
    rw [same.length]
    exact inside
  refine Kept.exact ⟨insert_sound sound' inside' fresh,?_⟩ fair
  funext t
  rw [insert_drift sound',drift_addMpaths]
  by_cases here : s = t
  · subst here
    rw [if_pos rfl,if_pos ⟨rfl,rfl⟩]
    exact map_back _ 1
  · rw [if_neg here]
    simp [newMpath,here]

theorem mppAdd_exact (found : w.ifaces[s]? = some iface) (dst mpp : EthAddr) (allocPath allocNode : Bool) :
    Exact jhash w (w.mppPathAdd jhash s iface dst mpp allocPath allocNode).1 (.mppAdd s dst mpp allocPath allocNode) := by
  unfold World.mppPathAdd
  split
  · exact Kept.exact ⟨sound,rfl⟩ trivial
  split
  · exact Kept.exact ⟨sound,rfl⟩ trivial
  split
  · exact Kept.exact ⟨sound,rfl⟩ trivial
  split
  · exact Kept.exact ⟨sound,rfl⟩ trivial
  · rename_i missing
    have fresh := find_missing sound missing
    refine Kept.exact ⟨insert_sound sound (List.getElem?_eq_some_iff.mp found).1 fresh,?_⟩ trivial
    funext t
    rw [insert_drift sound]
    simp

theorem rcu_sound (fewer : ∀ node ∈ rcu, node ∈ w.rcu) : Sound jhash {w with rcu := rcu} :=
  ⟨sound.sized,sound.placed,sound.unique,sound.owned,fun node member => sound.waits node (fewer node member),sound.gates,
    sound.noGates,sound.entries,sound.numGates⟩

theorem reclaim_exact (waits : w.rcu[j]? = some node) (found : w.paths[node.2]? = some m) :
    Exact jhash w (w.meshPathNodeReclaim j node.2 m) (.reclaim j) := by
  obtain ⟨kind,p⟩ := node
  obtain ⟨inRcu,value⟩ := List.getElem?_eq_some_iff.mp waits
  obtain ⟨s,owner,inside⟩ := sound.waits (kind,p) (List.mem_of_getElem? waits)
  rw [owner_get found] at owner
  cases Option.some.inj owner
  have taken := rcu_sound sound fun node member => List.mem_of_mem_eraseIdx (i := j) member
  have same := addMpaths_same {w with rcu := w.rcu.eraseIdx j} m.sdata (-1)
  have there : ({w with rcu := w.rcu.eraseIdx j}.addMpaths m.sdata (-1)).paths[p]? = some m := by
    unfold World.addMpaths
    split <;> exact found
  have freed := setPath_same {m with timer := false,freed := true} there rfl rfl
  have sound' := freed.sound (same.sound taken)
  have drift : ∀ t, (w.meshPathNodeReclaim j p m).drift t =
      (w.drift t).map (· + if m.sdata = t ∧ kind = .mpp then -1 else 0) := by
    intro t
    have perm := List.getElem_cons_eraseIdx_perm inRcu
    have counted := perm.countP_eq fun node => node.1 == .paths && w.owner node.2 == some t
    rw [List.countP_cons,value,owner_get found] at counted
    have waiting : ({w with rcu := w.rcu.eraseIdx j} : World).waiting t = (w.rcu.eraseIdx j).countP fun node =>
        node.1 == .paths && w.owner node.2 == some t := rfl
    have before : w.waiting t = w.rcu.countP fun node => node.1 == .paths && w.owner node.2 == some t := rfl
    have mid : ({w with rcu := w.rcu.eraseIdx j} : World).drift t =
        (w.drift t).map (· + if m.sdata = t ∧ kind = .paths then 1 else 0) := by
      unfold World.drift
      rw [waiting,before,← counted,map_map]
      congr 1
      funext n
      show n - ((w.inTable t : Int) + _) = _
      cases kind <;> by_cases here : m.sdata = t <;> simp [here]
      omega
    show (({w with rcu := w.rcu.eraseIdx j}.addMpaths m.sdata (-1)).setPath p {m with timer := false,freed := true}).drift t = _
    rw [freed.drift rfl,drift_addMpaths,mid]
    by_cases here : m.sdata = t
    · subst here
      cases kind with
      | paths =>
        simp
      | mpp => simp
    · simp [here]
  refine ⟨sound',fun accounted => ?_⟩
  cases kind with
  | paths =>
    have kept : (w.meshPathNodeReclaim j p m).drift = w.drift := by
      funext t
      rw [drift]
      simp
    refine ⟨fun _ => ?_,fun _ => (drift_accounted kept).mpr accounted⟩
    intro q other
    rw [waits] at other
    cases other
  | mpp =>
    constructor
    · intro still
      have changed := drift m.sdata
      rw [if_pos ⟨rfl,rfl⟩] at changed
      exact absurd still (changed_unaccounted accounted inside changed (by decide))
    · intro fair
      exact absurd waits (fair p)

theorem step_exact (ran : step jhash e w = some w') : Exact jhash w w' e := by
  cases e with
  | pathAdd s dst allocPath allocNode =>
    obtain ⟨iface,found,rfl⟩ := map_eq_some_iff.mp ran
    exact pathAdd_exact sound found dst allocPath allocNode
  | mppAdd s dst mpp allocPath allocNode =>
    obtain ⟨iface,found,rfl⟩ := map_eq_some_iff.mp ran
    exact mppAdd_exact sound found dst mpp allocPath allocNode
  | lookup =>
    cases ran
    refine Kept.exact ?_ trivial
    unfold World.mpathLookup
    split
    · exact ⟨sound,rfl⟩
    · rename_i p found
      obtain ⟨same,mpaths⟩ := checkExpired_same w p
      exact same.kept mpaths sound
  | pathDel s dst =>
    cases ran
    exact (meshPathDel_kept sound s dst).exact trivial
  | flushByNexthop =>
    cases ran
    exact (flush_kept sound .paths _).exact trivial
  | flushByIface s =>
    cases ran
    have first := flush_kept sound .paths fun m => m.sdata == s
    exact (first.trans (flush_kept first.sound .mpp _)).exact trivial
  | expire s =>
    cases ran
    exact (expire_kept sound s).exact trivial
  | addGate p alloc =>
    simp only [step] at ran
    split at ran
    · rename_i known
      obtain ⟨m,found,rfl⟩ := map_eq_some_iff.mp ran
      have owned : w.Owned p := by
        rcases Bool.or_eq_true_iff.mp known with listed | held
        · exact sound.owned .paths p (by simpa [World.table] using listed)
        · exact sound.waits (.paths,p) (by simpa using held)
      obtain ⟨sound',drift⟩ := addGate_sound sound owned found alloc
      exact Kept.exact ⟨sound',drift⟩ trivial
    · cases ran
  | grow kind s hashRnd alloc =>
    obtain ⟨iface,found,ran⟩ := Option.bind_eq_some_iff.mp ran
    split at ran
    · cases ran
      have same : (iface.grown kind).ifindex = iface.ifindex ∧ (iface.grown kind).numGates = iface.numGates ∧
          (iface.grown kind).mpaths = iface.mpaths := by
        cases kind <;> exact ⟨rfl,rfl,rfl⟩
      have cleared := (setIface_same found same.1 same.2.1).kept (setIface_mpaths found same.2.2) sound
      exact (cleared.trans (grow_kept cleared.sound kind hashRnd alloc)).exact trivial
    · cases ran
  | reclaim =>
    obtain ⟨_,waits,ran⟩ := Option.bind_eq_some_iff.mp ran
    obtain ⟨m,found,rfl⟩ := map_eq_some_iff.mp ran
    exact reclaim_exact sound waits found
  | write p m' =>
    obtain ⟨m,found,rfl⟩ := map_eq_some_iff.mp ran
    have same := setPath_same
      {m' with dst := m.dst,mpp := m.mpp,sdata := m.sdata,isGate := m.isGate,freed := m.freed} found rfl rfl
    exact (same.kept rfl sound).exact trivial
  | tick jiffies =>
    cases ran
    have same : Same w {w with jiffies := jiffies} := ⟨rfl,rfl,rfl,rfl,rfl,rfl⟩
    exact (same.kept rfl sound).exact trivial

end

end steps

section runs

inductive FairRun (jhash : UInt32 → UInt32 → UInt32 → UInt32) (start : World) : World → Prop where
  | refl : FairRun jhash start start
  | step (prior : FairRun jhash start before) (fair : Event.Fair before e)
      (ran : step jhash e before = some after) : FairRun jhash start after

variable (jhash : UInt32 → UInt32 → UInt32 → UInt32) in
theorem initial_sound (initial : w.Initial) : Sound jhash w ∧ Accounted w := by
  obtain ⟨paths,rcu,⟨a,meshPaths⟩,⟨b,mppPaths⟩,zero⟩ := initial
  have table : ∀ kind, ∃ hashRnd, w.table kind = .init hashRnd := by
    intro kind
    cases kind with
    | paths => exact ⟨a,meshPaths⟩
    | mpp => exact ⟨b,mppPaths⟩
  have empty : ∀ kind, (w.table kind).nodes = [] := by
    intro kind
    obtain ⟨hashRnd,there⟩ := table kind
    rw [there]
    rfl
  refine ⟨⟨?_,?_,?_,?_,?_,?_,?_,?_,?_⟩,?_⟩
  · intro kind
    obtain ⟨hashRnd,there⟩ := table kind
    rw [there]
    rfl
  · intro kind
    obtain ⟨_,there⟩ := table kind
    rw [there]
    exact placed_replicate _ 4
  · intro kind
    rw [empty]
    exact List.nodup_nil
  · intro kind p member
    rw [empty] at member
    cases member
  · intro _ member
    rw [rcu] at member
    cases member
  · intro p member
    rw [meshPaths] at member
    cases member
  · rw [mppPaths]
    rfl
  · intro kind
    obtain ⟨_,there⟩ := table kind
    rw [empty,there]
    rfl
  · intro s n found
    obtain ⟨iface,there,rfl⟩ := map_eq_some_iff.mp found
    rw [meshPaths]
    exact (zero iface (List.mem_of_getElem? there)).2
  · intro s iface there
    unfold World.inTable World.waiting
    rw [empty,rcu]
    exact (zero iface (List.mem_of_getElem? there)).1

theorem reach_sound (reach : Reach jhash start w) (initial : start.Initial) : Sound jhash w := by
  induction reach with
  | refl => exact (initial_sound jhash initial).1
  | step prior ran ih => exact (step_exact ih ran).1

theorem fair_reach (fair : FairRun jhash start w) : Reach jhash start w := by
  induction fair with
  | refl => exact .refl
  | step prior fair ran ih => exact .step ih ran

theorem fair_accounted (fair : FairRun jhash start w) (initial : start.Initial) : Accounted w := by
  induction fair with
  | refl => exact (initial_sound jhash initial).2
  | step prior fair ran ih => exact ((step_exact (reach_sound (fair_reach prior) initial) ran).2 ih).mpr fair

theorem mpaths_counts (initial : start.Initial) (reach : Reach jhash start w) :
    (∀ kind, (w.table kind).entries = ((w.table kind).nodes.length : Int) ∧ ((w.table kind).nodes.map w.key).Nodup) ∧
    (∀ (s : Nat) (iface : Iface), w.ifaces[s]? = some iface →
      iface.numGates = (w.meshPaths.knownGates.countP (fun p => w.owner p == some s) : Int)) ∧
    (FairRun jhash start w →
      (∀ (s : Nat) (iface : Iface), w.ifaces[s]? = some iface →
        iface.mpaths = (w.inTable s + w.waiting s : Int) ∧ (iface.mpaths = (w.inTable s : Int) ↔ w.waiting s = 0)) ∧
      ∀ e w', step jhash e w = some w' → (Accounted w' ↔ e.Fair w)) := by
  have sound := reach_sound reach initial
  refine ⟨fun kind => ⟨sound.entries kind,sound.unique kind⟩,?_,?_⟩
  · intro s iface found
    exact sound.numGates s iface.numGates (by simp [World.num,found])
  · intro fair
    have accounted := fair_accounted fair initial
    refine ⟨?_,fun e w' ran => (step_exact sound ran).2 accounted⟩
    intro s iface found
    have counted := accounted s iface found
    exact ⟨counted,by omega⟩

def sampleHash (a b c : UInt32) : UInt32 := a ^^^ b ^^^ c
def sampleTables : World where
  hz := 250
  jiffies := 1000
  ifaces := [⟨macAddr 2 0 0 0 0 1,3,0,0,false,false⟩]
  paths := []
  meshPaths := .init 7
  mppPaths := .init 9
  rcu := []

def sampleAdd : Event := .pathAdd 0 (macAddr 2 0 0 0 0 2) true true
def sampleTablesAfter (events : List Event) : World := (run sampleHash events sampleTables).getD sampleTables

theorem sampleTables_initial : sampleTables.Initial := by
  refine ⟨rfl,rfl,⟨7,rfl⟩,⟨9,rfl⟩,?_⟩
  intro _ member
  cases List.mem_singleton.mp member
  exact ⟨rfl,rfl⟩

theorem mpaths_sample : (sampleTablesAfter [sampleAdd]).inTable 0 = 1 ∧
    (∀ kind, ((sampleTablesAfter [sampleAdd]).table kind).entries = (((sampleTablesAfter [sampleAdd]).table kind).nodes.length : Int) ∧
      (((sampleTablesAfter [sampleAdd]).table kind).nodes.map (sampleTablesAfter [sampleAdd]).key).Nodup) ∧
    Accounted (sampleTablesAfter [sampleAdd]) := by
  have added : step sampleHash sampleAdd sampleTables = some (sampleTablesAfter [sampleAdd]) := by decide
  have fair : sampleAdd.Fair sampleTables := by
    rintro ⟨iface,p,_,_,_,_,member,_⟩
    have empty : sampleTables.meshPaths.nodes = [] := rfl
    rw [empty] at member
    cases member
  have start : FairRun sampleHash sampleTables sampleTables := .refl
  have counts := mpaths_counts sampleTables_initial (Reach.step .refl added)
  exact ⟨by decide,counts.1,fun s iface found => ((counts.2.2 (start.step fair added)).1 s iface found).1⟩

-- A path added again is counted again, and a proxy path is taken away without having been counted.
theorem mpaths_drift :
    (∃ w, Reach sampleHash sampleTables w ∧ w.inTable 0 = 1 ∧ w.waiting 0 = 0 ∧ w.mpaths 0 = some 2) ∧
      ∃ w, Reach sampleHash sampleTables w ∧ w.inTable 0 = 0 ∧ w.waiting 0 = 0 ∧ w.mpaths 0 = some (-1) := by
  have twice : (run sampleHash [sampleAdd,sampleAdd] sampleTables).any
      (fun w => w.inTable 0 == 1 && w.waiting 0 == 0 && w.mpaths 0 == some 2) = true := by decide
  have proxy : (run sampleHash [.mppAdd 0 (macAddr 2 0 0 0 0 2) (macAddr 2 0 0 0 0 3) true true,.flushByIface 0,.reclaim 0] sampleTables).any
      (fun w => w.inTable 0 == 0 && w.waiting 0 == 0 && w.mpaths 0 == some (-1)) = true := by decide
  constructor
  · obtain ⟨w,ran,found⟩ := (any_eq_true _ _).mp twice
    exact ⟨w,Transitions.run_reach .step .refl ran,by simpa [and_assoc] using found⟩
  · obtain ⟨w,ran,found⟩ := (any_eq_true _ _).mp proxy
    exact ⟨w,Transitions.run_reach .step .refl ran,by simpa [and_assoc] using found⟩

end runs

end Mac80211.MeshPathtbl

import Mac80211.MeshPathtblCount

namespace Mac80211.MeshPathtbl

-- The table links, gates and frees paths; number and next hop are for HWMP to write.
structure Quiet (m m' : MeshPath) : Prop where
  sn : m'.sn = m.sn
  nextHop : m'.nextHop = m.nextHop
  snValid : m'.flags.snValid = m.flags.snValid

theorem Quiet.refl (m : MeshPath) : Quiet m m := ⟨rfl,rfl,rfl⟩

theorem Quiet.trans (first : Quiet m m') (second : Quiet m' m'') : Quiet m m'' :=
  ⟨second.sn.trans first.sn,second.nextHop.trans first.nextHop,second.snValid.trans first.snValid⟩

def Calm (t t' : World) : Prop :=
  ∀ (p : Nat) (m : MeshPath), t.paths[p]? = some m → ∃ m', t'.paths[p]? = some m' ∧ Quiet m m'

section tables

theorem Calm.refl (t : World) : Calm t t := fun _ m found => ⟨m,found,Quiet.refl m⟩

theorem Calm.trans (first : Calm t t') (second : Calm t' t'') : Calm t t'' := by
  intro p m found
  obtain ⟨m',found',quiet⟩ := first p m found
  obtain ⟨m'',found'',quiet'⟩ := second p m' found'
  exact ⟨m'',found'',quiet.trans quiet'⟩

theorem calm_paths (paths : t'.paths = t.paths) : Calm t t' := by
  intro p m found
  exact ⟨m,paths ▸ found,Quiet.refl m⟩

theorem calm_setPath (m' : MeshPath) (found : t.paths[p]? = some m) (quiet : Quiet m m') : Calm t (t.setPath p m') := by
  intro q old there
  by_cases same : p = q
  · subst same
    cases Option.some.inj (found.symm.trans there)
    exact ⟨m',List.getElem?_set_self (List.getElem?_eq_some_iff.mp found).1,quiet⟩
  · exact ⟨old,(List.getElem?_set_ne same).trans there,Quiet.refl old⟩

theorem calm_append (paths : t'.paths = t.paths ++ [m]) : Calm t t' := by
  intro q old there
  refine ⟨old,?_,Quiet.refl old⟩
  rw [paths,List.getElem?_append_left (List.getElem?_eq_some_iff.mp there).1]
  exact there

theorem paths_addMpaths (t : World) (s : Nat) (change : Int) : (t.addMpaths s change).paths = t.paths := by
  unfold World.addMpaths
  split <;> rfl

theorem paths_addGates (t : World) (s : Nat) (change : Int) : (t.addGates s change).paths = t.paths := by
  unfold World.addGates
  split <;> rfl

theorem paths_insert (t : World) (kind : Kind) (m : MeshPath) : (t.insert jhash kind m).paths = t.paths ++ [m] := by
  have node : (t.insertNode jhash kind m).paths = t.paths ++ [m] := by cases kind <;> rfl
  unfold World.insert
  dsimp only
  split
  · rw [← node]
    unfold World.queueGrow
    split <;> rfl
  · exact node

theorem calm_checkExpired (t : World) (p : Nat) : Calm t (t.checkExpired p) := by
  unfold World.checkExpired
  split
  · exact Calm.refl t
  · rename_i m found
    split
    · exact calm_setPath _ found ⟨rfl,rfl,rfl⟩
    · exact Calm.refl t

theorem calm_add (t : World) (s : Nat) (iface : Iface) (dst : EthAddr) (allocPath allocNode : Bool) :
    Calm t (t.meshPathAdd jhash s iface dst allocPath allocNode).1 := by
  unfold World.meshPathAdd
  split
  · exact Calm.refl t
  split
  · exact Calm.refl t
  split
  · exact Calm.refl t
  dsimp only
  split
  · exact calm_paths (paths_addMpaths t s 1)
  · split
    · exact calm_paths ((paths_addMpaths _ s (-1)).trans (paths_addMpaths t s 1))
    · exact (calm_paths (paths_addMpaths t s 1)).trans (calm_append (paths_insert ..))

theorem calm_mppAdd (t : World) (s : Nat) (iface : Iface) (dst mpp : EthAddr) (allocPath allocNode : Bool) :
    Calm t (t.mppPathAdd jhash s iface dst mpp allocPath allocNode).1 := by
  unfold World.mppPathAdd
  split
  · exact Calm.refl t
  split
  · exact Calm.refl t
  split
  · exact Calm.refl t
  split
  · exact Calm.refl t
  · exact calm_append (paths_insert ..)

theorem calm_addGate (found : t.paths[p]? = some m) (alloc : Bool) : Calm t (t.meshPathAddGate p m alloc).1 := by
  unfold World.meshPathAddGate
  split
  · exact Calm.refl t
  split
  · exact Calm.refl t
  · exact (calm_setPath {m with isGate := true} found ⟨rfl,rfl,rfl⟩).trans (calm_paths (paths_addGates _ _ _))

theorem calm_gateDel (kind : Kind) (found : t.paths[p]? = some m) : Calm t (t.meshGateDel kind p m) := by
  unfold World.meshGateDel
  dsimp only
  split
  · have same : ((t.setTable {t.table kind with knownGates := (t.table kind).knownGates.erase p} kind).addGates m.sdata (-1)).paths =
        t.paths := by
      rw [paths_addGates]
      cases kind <;> rfl
    rw [← same] at found
    exact (calm_paths same).trans (calm_setPath {m with isGate := false} found ⟨rfl,rfl,rfl⟩)
  · exact Calm.refl t

theorem calm_del (t : World) (kind : Kind) (p : Nat) : Calm t (t.del kind p) := by
  unfold World.del
  split
  · exact Calm.refl t
  · rename_i m found
    dsimp only
    have first : Calm t (t.setPath p {m with flags.resolving := true}) := calm_setPath _ found ⟨rfl,rfl,rfl⟩
    have there : (t.setPath p {m with flags.resolving := true}).paths[p]? = some {m with flags.resolving := true} :=
      List.getElem?_set_self (List.getElem?_eq_some_iff.mp found).1
    have unlinked : ∀ t : World, Calm t (t.unlink kind p) := fun t => calm_paths (by cases kind <;> rfl)
    split
    · exact (first.trans (calm_gateDel kind there)).trans (unlinked _)
    · exact first.trans (unlinked _)

theorem calm_pathDel (t : World) (s : Nat) (dst : EthAddr) : Calm t (t.meshPathDel jhash s dst).1 := by
  unfold World.meshPathDel
  split
  · exact Calm.refl t
  · exact calm_del t .paths _

theorem calm_foldl (f : World → Nat → World) (calm : ∀ t p, Calm t (f t p)) (nodes : List Nat) (t : World) :
    Calm t (nodes.foldl f t) := by
  induction nodes generalizing t with
  | nil => exact Calm.refl t
  | cons p rest ih => exact (calm t p).trans (ih (f t p))

theorem calm_forEach (visit : World → Nat → MeshPath → World) (calm : ∀ t p m, Calm t (visit t p m))
    (t : World) (kind : Kind) : Calm t (t.forEach kind visit) := by
  refine calm_foldl _ ?_ _ t
  intro t p
  split
  · exact Calm.refl t
  · exact calm t p _

theorem calm_flush (t : World) (kind : Kind) (test : MeshPath → Bool) : Calm t (t.flush kind test) := by
  refine calm_forEach _ ?_ t kind
  intro t p m
  split
  · exact calm_del t kind p
  · exact Calm.refl t

theorem table_calm (ran : step jhash e t = some t') (other : ∀ p m, e ≠ .write p m) : Calm t t' := by
  cases e with
  | pathAdd s dst allocPath allocNode =>
    obtain ⟨iface,found,rfl⟩ := Option.map_eq_some_iff.mp ran
    exact calm_add t s iface dst allocPath allocNode
  | mppAdd s dst mpp allocPath allocNode =>
    obtain ⟨iface,found,rfl⟩ := Option.map_eq_some_iff.mp ran
    exact calm_mppAdd t s iface dst mpp allocPath allocNode
  | lookup =>
    cases ran
    unfold World.mpathLookup
    split
    · exact Calm.refl t
    · exact calm_checkExpired t _
  | pathDel s dst =>
    cases ran
    exact calm_pathDel t s dst
  | flushByNexthop =>
    cases ran
    exact calm_flush t .paths _
  | flushByIface =>
    cases ran
    exact (calm_flush t .paths _).trans (calm_flush _ .mpp _)
  | expire =>
    cases ran
    refine calm_forEach _ ?_ t .paths
    intro t p m
    split
    · exact calm_pathDel t _ _
    · exact Calm.refl t
  | addGate p alloc =>
    simp only [step] at ran
    split at ran
    · obtain ⟨m,found,rfl⟩ := Option.map_eq_some_iff.mp ran
      exact calm_addGate found alloc
    · cases ran
  | grow kind =>
    obtain ⟨_,found,ran⟩ := Option.bind_eq_some_iff.mp ran
    split at ran
    · cases ran
      refine calm_paths ?_
      unfold World.tableGrow
      dsimp only
      split
      · rfl
      · cases kind <;> rfl
    · cases ran
  | reclaim j =>
    obtain ⟨_,_,ran⟩ := Option.bind_eq_some_iff.mp ran
    obtain ⟨m,found,rfl⟩ := Option.map_eq_some_iff.mp ran
    have same : ({t with rcu := t.rcu.eraseIdx j}.addMpaths m.sdata (-1)).paths = t.paths := paths_addMpaths _ _ _
    rw [← same] at found
    exact (calm_paths same).trans (calm_setPath {m with timer := false,freed := true} found ⟨rfl,rfl,rfl⟩)
  | write p m' => exact absurd rfl (other p m')
  | tick =>
    cases ran
    exact Calm.refl t

end tables

end Mac80211.MeshPathtbl

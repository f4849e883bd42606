import Mac80211.MeshHwmp
import Mac80211.MeshPathtblQuiet

namespace Mac80211.MeshHwmp
open Ieee80211 MeshPathtbl
open RxReorder (Jiffies timeAfter)
open Option (map_eq_some_iff any_eq_true bind_eq_some_iff any_some)

section serial

-- The serial order: equal, or newer.
def SnKept (old new : UInt32) : Prop := new = old ∨ snGt new old = true

theorem snLt_gt (x y : UInt32) : snLt x y = snGt y x := rfl

theorem snGt_succ (x : UInt32) : snGt (x + 1) x = true := by
  have back : x - (x + 1) = 0xffffffff := by
    apply UInt32.toBitVec_inj.mp
    simp only [UInt32.toBitVec_sub,UInt32.toBitVec_add,UInt32.toBitVec_ofNat]
    bv_omega
  unfold snGt
  rw [back]
  decide

theorem snKept_of (notOlder : snGt x y = false) : SnKept x y := by
  by_cases same : y = x
  · exact .inl same
  · refine .inr ?_
    have apart : y.toNat ≠ x.toNat := fun equal => same (UInt32.toNat_inj.mp equal)
    have bound : (0x80000000 : UInt32).toNat = 2147483648 := rfl
    unfold snGt at notOlder ⊢
    simp only [decide_eq_false_iff_not,decide_eq_true_eq,UInt32.le_iff_toNat_le,UInt32.toNat_sub,bound] at notOlder ⊢
    have small := x.toNat_lt
    have small' := y.toNat_lt
    omega

end serial

def World.activeNow (w : World) (m : MeshPath) : Bool := m.flags.active && !mpathExpired w.tbl.jiffies m

structure Mild (m m' : MeshPath) : Prop where
  nextHop : m'.nextHop = m.nextHop
  sn : m.flags.snValid = true → m'.flags.snValid = true → SnKept m.sn m'.sn

theorem mild_of (quiet : Quiet m m') : Mild m m' := ⟨quiet.nextHop,fun _ _ => .inl quiet.sn⟩

section lookups
variable {w w' : World}

theorem lookup_value (w : World) (s : Nat) (dst : EthAddr) : w.meshPathLookup jhash s dst =
    match w.tbl.find jhash .paths s dst with
    | none => (w,none)
    | some p => ({w with tbl := w.tbl.checkExpired p},some p) := by
  unfold World.meshPathLookup World.mpathLookup
  cases w.tbl.find jhash .paths s dst <;> rfl

theorem lookup_found (looked : w.meshPathLookup jhash s dst = (w',some p)) :
    ∃ m, w.path p = some m ∧ m.dst = dst ∧ w'.path p = some {m with flags.active := w.activeNow m} := by
  rw [lookup_value] at looked
  split at looked
  · cases looked
  rename_i q found
  cases looked
  obtain ⟨_,key⟩ := find_node found
  obtain ⟨m,there,pair⟩ := map_eq_some_iff.mp key
  refine ⟨m,there,(Prod.mk.inj pair).2,?_⟩
  unfold World.path MeshPathtbl.World.checkExpired
  rw [there]
  dsimp only
  split
  · rename_i expired
    have off : w.activeNow m = false := by simp [World.activeNow,expired]
    rw [off]
    exact List.getElem?_set_self (List.getElem?_eq_some_iff.mp there).1
  · rename_i fresh
    have on : w.activeNow m = m.flags.active := by simp [World.activeNow,fresh]
    rw [on]
    exact there

theorem lookup_missing (looked : w.meshPathLookup jhash s dst = (w',none)) :
    w' = w ∧ w.tbl.find jhash .paths s dst = none := by
  rw [lookup_value] at looked
  split at looked
  · rename_i missing
    cases looked
    exact ⟨rfl,missing⟩
  · cases looked

variable (jhash : UInt32 → UInt32 → UInt32 → UInt32) in
theorem lookup_calm (w : World) (s : Nat) (dst : EthAddr) : Calm w.tbl (w.meshPathLookup jhash s dst).1.tbl := by
  rw [lookup_value]
  split
  · exact Calm.refl w.tbl
  · exact calm_checkExpired w.tbl _

theorem find_addMpaths (t : MeshPathtbl.World) (kind : Kind) (s r : Nat) (change : Int) (dst : EthAddr) :
    (t.addMpaths r change).find jhash kind s dst = t.find jhash kind s dst := by
  have same := addMpaths_same t r change
  have is : (t.addMpaths r change).is = t.is := by
    funext s dst p
    unfold MeshPathtbl.World.is
    rw [paths_addMpaths]
  unfold MeshPathtbl.World.find
  rw [is,same.table,same.ifindex]

theorem add_new (looked : w.meshPathLookup jhash s dst = (w',none))
    (added : w.meshPathAdd jhash s iface dst allocPath allocNode = (w'',.ok p)) : w.path p = none := by
  have missing := (lookup_missing looked).2
  unfold World.meshPathAdd MeshPathtbl.World.meshPathAdd at added
  split at added
  · cases added
  split at added
  · cases added
  split at added
  · cases added
  dsimp only at added
  rw [find_addMpaths,missing] at added
  dsimp only at added
  split at added
  · cases added
  · cases added
    have size : (w.tbl.addMpaths s 1).paths.length = w.tbl.paths.length := by rw [paths_addMpaths]
    exact List.getElem?_eq_none (Nat.le_of_eq size.symm)

variable (jhash : UInt32 → UInt32 → UInt32 → UInt32) in
theorem hwmpAdd_calm (w : World) (s : Nat) (iface : Iface) (dst : EthAddr) (allocPath allocNode : Bool) :
    Calm w.tbl (w.meshPathAdd jhash s iface dst allocPath allocNode).1.tbl :=
  calm_add w.tbl s iface dst allocPath allocNode

def Looked (w w' : World) (dst : EthAddr) : Lookup → Prop
  | .found p => ∃ m, w.path p = some m ∧ m.dst = dst ∧ w'.path p = some {m with flags.active := w.activeNow m}
  | .added p => w.path p = none
  | .failed => True

theorem lookupOrAdd_spec (looked : w.lookupOrAdd jhash s iface dst allocPath allocNode = (w',out)) :
    Calm w.tbl w'.tbl ∧ Looked w w' dst out := by
  have calm := lookup_calm jhash w s dst
  unfold World.lookupOrAdd at looked
  split at looked
  · rename_i next p found
    cases looked
    rw [found] at calm
    exact ⟨calm,lookup_found found⟩
  rename_i next missing
  rw [(lookup_missing missing).1] at looked missing
  have added := hwmpAdd_calm jhash w s iface dst allocPath allocNode
  split at looked
  · rename_i next p new
    cases looked
    rw [new] at added
    exact ⟨added,add_new missing new⟩
  · rename_i next e failed
    cases looked
    rw [failed] at added
    exact ⟨added,trivial⟩

theorem calm_path (calm : Calm w.tbl w'.tbl) (before : w.path p = some m) (after : w'.path p = some m') : Quiet m m' := by
  obtain ⟨n,found,quiet⟩ := calm p m before
  cases Option.some.inj (found.symm.trans after)
  exact quiet

theorem modPath_other (w : World) (p : Nat) (f : MeshPath → MeshPath) (other : q ≠ p) : (w.modPath p f).path q = w.path q := by
  unfold World.modPath
  split
  · rfl
  · exact List.getElem?_set_ne (Ne.symm other)

theorem modPath_self (found : w.path p = some m) (f : MeshPath → MeshPath) : (w.modPath p f).path p = some (f m) := by
  unfold World.modPath
  rw [found]
  exact List.getElem?_set_self (List.getElem?_eq_some_iff.mp found).1

theorem calm_modPath (calm : Calm w.tbl w'.tbl) (f : MeshPath → MeshPath) (q : Nat) (before : w.path p = some m)
    (after : (w'.modPath q f).path p = some m') : Quiet m m' ∨ p = q ∧ ∃ n, w'.path p = some n ∧ Quiet m n ∧ m' = f n := by
  by_cases same : p = q
  · subst same
    obtain ⟨n,found,quiet⟩ := calm p m before
    rw [modPath_self found] at after
    exact .inr ⟨rfl,n,found,quiet,(Option.some.inj after).symm⟩
  · rw [modPath_other w' q f same] at after
    exact .inl (calm_path calm before after)

end lookups

section route

structure TakesOriginator (w : World) (ie : RouteIe) (m m' : MeshPath) : Prop where
  dst : ie.origAddr = m.dst
  sn : m'.sn = ie.origSn
  newer : w.activeNow m = true → m.flags.snValid = true →
    snGt m'.sn m.sn = true ∨ m'.sn = m.sn ∧ m'.metric < m.metric

theorem routeInfo_path (before : w.path p = some m)
    (after : (w.routeInfo jhash s iface sa ie lastHopMetric allocPath allocNode).1.path p = some m') :
    Quiet m m' ∨ TakesOriginator w ie m m' := by
  unfold World.routeInfo at after
  split at after
  · exact .inl (calm_path (Calm.refl _) before after)
  dsimp only at after
  split at after
  · exact .inl (calm_path (Calm.refl _) before after)
  split at after
  · rename_i looked
    exact .inl (calm_path (lookupOrAdd_spec looked).1 before after)
  · rename_i q looked
    obtain ⟨calm,new⟩ := lookupOrAdd_spec looked
    rcases calm_modPath calm _ q before after with quiet | ⟨rfl,_⟩
    · exact .inl quiet
    · cases before.symm.trans new
  rename_i q looked
  obtain ⟨calm,_,there,dst,now⟩ := lookupOrAdd_spec looked
  split at after
  · exact .inl (calm_path calm before after)
  split at after
  · exact .inl (calm_path calm before after)
  rename_i fresh
  rcases calm_modPath calm _ q before after with quiet | ⟨rfl,n,found,_,rfl⟩
  · exact .inl quiet
  cases Option.some.inj (before.symm.trans there)
  cases Option.some.inj (now.symm.trans found)
  refine .inr ⟨dst.symm,rfl,?_⟩
  intro active valid
  rw [now] at fresh
  simp only [any_some,staleOriginator,active,valid,Bool.true_and,Bool.or_eq_true,Bool.and_eq_true,beq_iff_eq,
    decide_eq_true_eq,not_or,not_and,Bool.not_eq_true] at fresh
  obtain ⟨notOlder,better⟩ := fresh
  rcases snKept_of notOlder with same | newer
  · exact .inr ⟨same,UInt32.not_le.mp (better same.symm)⟩
  · exact .inl newer

structure TakesTransmitter (w : World) (sa : EthAddr) (sta : Nat) (m m' : MeshPath) : Prop where
  dst : sa = m.dst
  sn : m'.sn = m.sn
  nextHop : m'.nextHop = some sta
  metric : w.activeNow m = true → m'.metric ≤ m.metric

theorem transmitterInfo_path (before : w.path p = some m)
    (after : (w.transmitterInfo jhash s iface sa ie sta lastHopMetric newMetric expTime process allocPath
      allocNode).1.path p = some m') : Quiet m m' ∨ TakesTransmitter w sa sta m m' := by
  unfold World.transmitterInfo at after
  dsimp only at after
  split at after
  · exact .inl (calm_path (Calm.refl _) before after)
  split at after
  · rename_i looked
    exact .inl (calm_path (lookupOrAdd_spec looked).1 before after)
  · rename_i q looked
    obtain ⟨calm,new⟩ := lookupOrAdd_spec looked
    rcases calm_modPath calm _ q before after with quiet | ⟨rfl,_⟩
    · exact .inl quiet
    · cases before.symm.trans new
  rename_i q looked
  obtain ⟨calm,_,there,dst,now⟩ := lookupOrAdd_spec looked
  split at after
  · exact .inl (calm_path calm before after)
  rename_i fresh
  rcases calm_modPath calm _ q before after with quiet | ⟨rfl,n,found,_,rfl⟩
  · exact .inl quiet
  · cases Option.some.inj (before.symm.trans there)
    cases Option.some.inj (now.symm.trans found)
    refine .inr ⟨dst.symm,rfl,rfl,?_⟩
    intro active
    rw [now] at fresh
    simp only [any_some,staleTransmitter,active,Bool.true_and,Bool.or_eq_true,decide_eq_true_eq,not_or] at fresh
    exact UInt32.not_lt.mp fresh.2

end route

section handlers
variable {w w' w'' : World}

theorem setPath_calm (n' : MeshPath) (found : w.path p = some n) (quiet : Quiet n n') : Calm w.tbl (w.setPath p n').tbl :=
  calm_setPath n' found quiet

theorem addGate_calm (w : World) (p : Nat) (alloc : Bool) : Calm w.tbl (w.addGate p alloc).tbl := by
  unfold World.addGate
  split
  · exact Calm.refl _
  · rename_i m found
    exact calm_addGate found alloc

theorem queuePreq_calm (w : World) (p : Nat) (start refresh alloc : Bool) :
    Calm w.tbl (w.meshQueuePreq p start refresh alloc).tbl := by
  unfold World.meshQueuePreq
  split
  · exact Calm.refl _
  rename_i m found
  split
  · exact Calm.refl _
  split
  · exact Calm.refl _
  split
  · exact Calm.refl _
  split
  · exact Calm.refl _
  · exact setPath_calm {m with flags.reqQueued := true} found ⟨rfl,rfl,rfl⟩

theorem errorTx_tbl (w : World) (s : Nat) (ifmsh : IfMesh) (perr : Perr) (ra : EthAddr) :
    (w.meshPathErrorTx s ifmsh perr ra).tbl = w.tbl := by
  unfold World.meshPathErrorTx
  split <;> rfl

theorem calm_tbl (same : w'.tbl = w.tbl) : Calm w.tbl w'.tbl := by
  rw [same]
  exact Calm.refl _

theorem calm_set_calm (first : Calm w.tbl w'.tbl) (found : w'.path q = some n) (n' : MeshPath)
    (last : Calm (w'.setPath q n').tbl w''.tbl) (before : w.path p = some m) (after : w''.path p = some m') :
    Quiet m m' ∨ p = q ∧ Quiet m n ∧ Quiet n' m' := by
  obtain ⟨k,there,quiet⟩ := first p m before
  by_cases same : p = q
  · subst same
    cases Option.some.inj (found.symm.trans there)
    have set : (w'.setPath p n').path p = some n' := List.getElem?_set_self (List.getElem?_eq_some_iff.mp found).1
    exact .inr ⟨rfl,quiet,calm_path last set after⟩
  · have kept : (w'.setPath q n').path p = some k := (List.getElem?_set_ne (Ne.symm same)).trans there
    exact .inl (quiet.trans (calm_path last kept after))

theorem preqTarget_mild (m : MeshPath) (preq : Preq) (out : PreqOut) : Mild m (preqTarget m preq out).1 := by
  unfold preqTarget
  split
  · rename_i newer
    refine ⟨rfl,fun valid _ => .inr ?_⟩
    simpa [valid,snLt_gt] using newer
  split
  · split <;> exact mild_of (Quiet.refl m)
  · exact mild_of (Quiet.refl m)

theorem mild_between (first : Quiet m n) (last : Quiet n' m') (change : Mild n n') : Mild m m' := by
  constructor
  · rw [last.nextHop,change.nextHop,first.nextHop]
  · intro valid valid'
    rw [last.sn,← first.sn]
    exact change.sn (first.snValid.trans valid) (last.snValid.symm.trans valid')

theorem mild_set (first : Calm w.tbl w'.tbl) (found : w'.path q = some n) (last : Calm (w'.setPath q n').tbl w''.tbl)
    (before : w.path p = some m) (after : w''.path p = some m') (change : Mild n n') : Mild m m' := by
  rcases calm_set_calm first found n' last before after with quiet | ⟨_,first,last⟩
  · exact mild_of quiet
  · exact mild_between first last change

theorem preqInfo_mild (before : w.path p = some m)
    (after : (w.preqInfo jhash s iface ifmsh preq metric alloc).1.path p = some m') : Mild m m' := by
  unfold World.preqInfo at after
  dsimp only at after
  split at after
  · exact mild_of (calm_path (Calm.refl _) before after)
  split at after
  · have looked := lookup_calm jhash w s preq.origAddr
    split at after
    · rename_i next found
      rw [found] at looked
      exact mild_of (calm_path looked before after)
    rename_i next q found
    rw [found] at looked
    refine mild_of (calm_path (looked.trans ?_) before after)
    split
    · split
      · exact addGate_calm (next.setMesh s _) q alloc
      · exact addGate_calm next q alloc
    · split <;> exact Calm.refl next.tbl
  have looked := lookup_calm jhash w s preq.targetAddr
  split at after
  · rename_i next found
    rw [found] at looked
    exact mild_of (calm_path looked before after)
  · rename_i next q found
    rw [found] at looked
    split at after
    · exact mild_of (calm_path looked before after)
    · rename_i n there
      exact mild_set looked there (Calm.refl _) before after (preqTarget_mild n preq _)

theorem preq_mild (before : w.path p = some m)
    (after : (w.preqFrameProcess jhash s iface ifmsh sa preq metric alloc).path p = some m') : Mild m m' := by
  have same : ∀ (w : World) (out : PreqOut), ((w.preqReply sa ifmsh preq out).preqForward ifmsh preq metric out).tbl = w.tbl := by
    intro w _
    unfold World.preqForward World.preqReply
    dsimp only
    split <;> split <;> rfl
  unfold World.path World.preqFrameProcess at after
  rw [same] at after
  exact preqInfo_mild before after

theorem prep_calm (w : World) (s : Nat) (iface : Iface) (ifmsh : IfMesh) (prep : Prep) (metric : UInt32) :
    Calm w.tbl (w.prepFrameProcess jhash s iface ifmsh prep metric).tbl := by
  unfold World.prepFrameProcess
  split
  · exact Calm.refl _
  split
  · exact Calm.refl _
  split
  · exact Calm.refl _
  have looked := lookup_calm jhash w s prep.origAddr
  dsimp only
  split
  · exact looked
  split
  · exact looked
  split <;> exact looked

theorem perr_mild (before : w.path p = some m)
    (after : (w.perrFrameProcess jhash s ifmsh sa perr).path p = some m') : Mild m m' := by
  unfold World.perrFrameProcess at after
  split at after
  · exact mild_of (calm_path (Calm.refl _) before after)
  have looked := lookup_calm jhash w s perr.targetAddr
  split at after
  · rename_i next found
    rw [found] at looked
    exact mild_of (calm_path looked before after)
  rename_i next q found
  rw [found] at looked
  split at after
  · exact mild_of (calm_path looked before after)
  rename_i n there
  dsimp only at after
  split at after
  · rename_i taken
    have change : Mild n {n with flags.active := false,sn := perr.targetSn} := by
      refine ⟨rfl,fun valid _ => .inr ?_⟩
      simp only [valid,Bool.not_true,Bool.false_or,Bool.and_eq_true] at taken
      exact taken.2
    split at after
    · exact mild_set looked there (Calm.refl _) before after change
    · exact mild_set looked there (calm_tbl (errorTx_tbl _ _ _ _ _)) before after change
  · exact mild_of (calm_path looked before after)

theorem rannPath_mild (before : w.path p = some m)
    (after : (w.rannPath ifmsh sa rann metricTxsta q allocPreq allocGate).path p = some m') : Mild m m' := by
  unfold World.rannPath at after
  split at after
  · exact mild_of (calm_path (Calm.refl _) before after)
  rename_i k there
  split at after
  · exact mild_of (calm_path (Calm.refl _) before after)
  rename_i taken
  have kept : SnKept k.sn rann.seq := by
    by_cases same : k.sn = rann.seq
    · exact .inl same.symm
    · simp only [snLt_gt,beq_iff_eq,same,Bool.and_eq_true,Bool.not_eq_true',Bool.and_eq_false_imp,IsEmpty.forall_iff,and_true,
        Bool.not_eq_false] at taken
      exact .inr taken
  have calm : ∀ confirm : Bool, Calm w.tbl (if confirm then w.meshQueuePreq q true true allocPreq else w).tbl := by
    intro confirm
    cases confirm with
    | false => exact Calm.refl _
    | true => exact queuePreq_calm w q true true allocPreq
  have gate : ∀ (w : World) (isGate : Bool), Calm w.tbl (if isGate then w.addGate q allocGate else w).tbl := by
    intro w isGate
    cases isGate with
    | false => exact Calm.refl _
    | true => exact addGate_calm w q allocGate
  have first := calm (w.confirmRoot ifmsh k rann.ttl)
  dsimp only at after
  split at after
  · exact mild_of (calm_path first before after)
  rename_i n there'
  have sn : n.sn = k.sn := (calm_path first there there').sn
  have path : ∀ w' : World, (if rann.ttl ≤ 1 || !ifmsh.mshcfg.forwarding then w'
      else w'.send (.rann {rann with
        hopcount := rann.hopcount + 1,
        ttl := rann.ttl - 1,
        metric := rann.metric + metricTxsta} broadcastAddr)).path p = w'.path p := by
    intro _
    split <;> rfl
  rw [path] at after
  exact mild_set first there' (gate _ _) before after ⟨rfl,fun _ _ => sn ▸ kept⟩

theorem rann_mild (before : w.path p = some m)
    (after : (w.rannFrameProcess jhash s iface ifmsh sa rann metricTxsta allocPath allocNode allocPreq
      allocGate).path p = some m') : Mild m m' := by
  have rest : ∀ (w' : World) (q : Nat), Calm w.tbl w'.tbl →
      (w'.rannPath ifmsh sa rann metricTxsta q allocPreq allocGate).path p = some m' → Mild m m' := by
    intro _ q calm after
    obtain ⟨n,there,quiet⟩ := calm p m before
    exact mild_between quiet (Quiet.refl m') (rannPath_mild there after)
  unfold World.rannFrameProcess at after
  split at after
  · exact mild_of (calm_path (Calm.refl _) before after)
  split at after
  · exact mild_of (calm_path (Calm.refl _) before after)
  split at after
  · rename_i looked
    exact mild_of (calm_path (lookupOrAdd_spec looked).1 before after)
  · rename_i looked
    exact rest _ _ (lookupOrAdd_spec looked).1 after
  · rename_i looked
    exact rest _ _ (lookupOrAdd_spec looked).1 after

def Breaks (m m' : MeshPath) : Prop :=
  m' = m ∨ m.flags.active = true ∧ m' = {m with flags.active := false,sn := m.sn + 1}

theorem breaks_trans (first : Breaks m n) (second : Breaks n n') : Breaks m n' := by
  rcases first with rfl | ⟨active,rfl⟩
  · exact second
  · rcases second with rfl | ⟨again,_⟩
    · exact .inr ⟨active,rfl⟩
    · cases again

theorem breakPath_breaks (w : World) (i : Nat) (sta : Sta) (q : Nat) (before : w.path p = some m) :
    ∃ m', (w.breakPath i sta q).path p = some m' ∧ Breaks m m' := by
  unfold World.breakPath
  split
  · exact ⟨m,before,.inl rfl⟩
  rename_i n there
  split
  · rename_i broken
    simp only [Bool.and_eq_true] at broken
    have set : ∃ m', (w.setPath q {n with flags.active := false,sn := n.sn + 1}).path p = some m' ∧ Breaks m m' := by
      by_cases same : q = p
      · subst same
        cases Option.some.inj (before.symm.trans there)
        exact ⟨_,List.getElem?_set_self (List.getElem?_eq_some_iff.mp before).1,.inr ⟨broken.1.2,rfl⟩⟩
      · exact ⟨m,(List.getElem?_set_ne same).trans before,.inl rfl⟩
    dsimp only
    split
    · exact set
    · unfold World.path
      rw [errorTx_tbl]
      exact set
  · exact ⟨m,before,.inl rfl⟩

theorem broken_breaks (w : World) (i : Nat) (sta : Sta) (before : w.path p = some m) :
    ∃ m', (w.meshPlinkBroken i sta).path p = some m' ∧ Breaks m m' := by
  have loop : ∀ (nodes : List Nat) (w : World) (m : MeshPath), w.path p = some m →
      ∃ m', (nodes.foldl (fun w q => w.breakPath i sta q) w).path p = some m' ∧ Breaks m m' := by
    intro nodes
    induction nodes with
    | nil => exact fun w m before => ⟨m,before,.inl rfl⟩
    | cons q rest ih =>
      intro w m before
      obtain ⟨n,there,first⟩ := breakPath_breaks w i sta q before
      obtain ⟨m',after,second⟩ := ih _ n there
      exact ⟨m',after,breaks_trans first second⟩
  exact loop _ w m before

theorem mild_breaks (breaks : Breaks m m') : Mild m m' := by
  rcases breaks with rfl | ⟨_,rfl⟩
  · exact mild_of (Quiet.refl _)
  · exact ⟨rfl,fun _ _ => .inr (snGt_succ m.sn)⟩

theorem beginDiscovery_quiet (m : MeshPath) (start : Bool) (discTimeout : UInt32) :
    Quiet m (beginDiscovery m start discTimeout) := by
  unfold beginDiscovery
  split <;> exact ⟨rfl,rfl,rfl⟩

theorem discover_calm (w : World) (s : Nat) (iface : Iface) (ifmsh : IfMesh) (node : PreqNode) (q : Nat) :
    Calm w.tbl (w.discover s iface ifmsh node q).tbl := by
  unfold World.discover
  split
  · exact Calm.refl _
  rename_i m found
  dsimp only
  have cleared : Quiet m {m with flags.reqQueued := false} := ⟨rfl,rfl,rfl⟩
  have began := cleared.trans (beginDiscovery_quiet {m with flags.reqQueued := false} node.start ifmsh.mshcfg.discTimeout)
  split
  · exact setPath_calm _ found cleared
  split
  · exact setPath_calm _ found ⟨rfl,rfl,rfl⟩
  split
  · exact setPath_calm _ found began
  · have set := fun (m' : MeshPath) => List.getElem?_set_self (a := m') (List.getElem?_eq_some_iff.mp found).1
    exact (setPath_calm _ found began).trans (calm_setPath _ (set _) ⟨rfl,rfl,rfl⟩)

theorem startDiscovery_calm (w : World) (s : Nat) (iface : Iface) (ifmsh : IfMesh) :
    Calm w.tbl (w.startDiscovery jhash s iface ifmsh).tbl := by
  unfold World.startDiscovery
  split
  · exact Calm.refl _
  rename_i node rest queue
  split
  · exact Calm.refl _
  dsimp only
  have looked := lookup_calm jhash (w.setMesh s {ifmsh with preqQueue := rest}) s node.dst
  split
  · rename_i next found
    rw [found] at looked
    exact looked
  · rename_i next q found
    rw [found] at looked
    exact looked.trans (discover_calm next s iface _ node q)

variable (jhash : UInt32 → UInt32 → UInt32 → UInt32) in
theorem nexthopLookup_calm (w : World) (s : Nat) (ifmsh : IfMesh) (target : EthAddr) (own alloc : Bool) :
    Calm w.tbl (w.nexthopLookup jhash s ifmsh target own alloc).1.tbl := by
  unfold World.nexthopLookup
  have looked := lookup_calm jhash w s target
  split
  · rename_i next found
    rw [found] at looked
    exact looked
  rename_i next q found
  rw [found] at looked
  split
  · exact looked
  split
  · exact looked
  dsimp only
  split
  · exact looked.trans (queuePreq_calm next q true true alloc)
  · exact looked

theorem nexthopResolve_calm (w : World) (s : Nat) (iface : Iface) (ifmsh : IfMesh) (target : EthAddr) (own : Bool) (i : Inputs) :
    Calm w.tbl (w.nexthopResolve jhash s iface ifmsh target own i).tbl := by
  have queue : ∀ (w : World) (q : Nat),
      Calm w.tbl (if (w.path q).any fun m => !m.flags.resolving then w.meshQueuePreq q true false i.allocPreq else w).tbl := by
    intro w q
    split
    · exact queuePreq_calm w q true false i.allocPreq
    · exact Calm.refl _
  have first := nexthopLookup_calm jhash w s ifmsh target own i.allocPreq
  unfold World.nexthopResolve
  dsimp only
  split
  · exact first
  split
  · rename_i looked
    exact first.trans (lookupOrAdd_spec looked).1
  · rename_i looked
    exact (first.trans (lookupOrAdd_spec looked).1).trans (queue _ _)
  · rename_i looked
    exact (first.trans (lookupOrAdd_spec looked).1).trans (queue _ _)

theorem timer_mild (found : w.path q = some n) (ifmsh : IfMesh) (alloc : Bool) (before : w.path p = some m)
    (after : (w.meshPathTimer q n ifmsh alloc).path p = some m') : Mild m m' := by
  unfold World.meshPathTimer at after
  dsimp only at after
  split at after
  · exact mild_set (Calm.refl _) found (Calm.refl _) before after ⟨rfl,fun _ _ => .inl rfl⟩
  split at after
  · exact mild_set (Calm.refl _) found (queuePreq_calm _ q false false alloc) before after ⟨rfl,fun _ _ => .inl rfl⟩
  · exact mild_set (Calm.refl _) found (Calm.refl _) before after ⟨rfl,fun _ valid => by cases valid⟩

theorem fixNexthop_path (before : w.path p = some m) (after : (w.fixNexthop q i).path p = some m') :
    Quiet m m' ∨ m'.flags.fixed = true := by
  rcases calm_modPath (Calm.refl _) _ q before after with quiet | ⟨_,n,_,_,rfl⟩
  · exact .inl quiet
  · exact .inr rfl

theorem rootFrame_tbl (w : World) (s : Nat) (iface : Iface) (ifmsh : IfMesh) : (w.txRootFrame s iface ifmsh).tbl = w.tbl := by
  unfold World.txRootFrame
  dsimp only
  split <;> rfl

end handlers

section runs
variable {w w' : World}

def World.acts (w : World) (e : Event) (sa : EthAddr) (action : Action) : Prop :=
  ∃ k i task rest, e = .act k i ∧ w.tasks[k]? = some task ∧ task.sa = sa ∧ task.actions = action :: rest

inductive Moves (w : World) (e : Event) (m m' : MeshPath) : Prop where
  | mild (mild : Mild m m')
  | fixed (fixed : m'.flags.fixed = true)
  | originator (sa : EthAddr) (ie : RouteIe) (acts : w.acts e sa (.routeInfo ie)) (takes : TakesOriginator w ie m m')
  | transmitter (sa : EthAddr) (ie : RouteIe) (sta : Nat) (lastHopMetric newMetric : UInt32) (expTime : Jiffies) (process : Bool)
    (acts : w.acts e sa (.transmitter ie sta lastHopMetric newMetric expTime process)) (takes : TakesTransmitter w sa sta m m')

theorem moves_calm (calm : Calm w.tbl w'.tbl) (before : w.path p = some m) (after : w'.path p = some m') : Moves w e m m' :=
  .mild (mild_of (calm_path calm before after))

theorem fix_moves (calm : Calm w.tbl w'.tbl) (before : w.path p = some m)
    (after : (w'.fixNexthop q i).path p = some m') : Moves w e m m' := by
  obtain ⟨n,there,quiet⟩ := calm p m before
  rcases fixNexthop_path there after with same | fixed
  · exact .mild (mild_of (quiet.trans same))
  · exact .fixed fixed

theorem act_path (there : w.tasks[k]? = some task) (head : task.actions = action :: rest)
    (before : w.path p = some m)
    (after : (w.act jhash task.sdata iface ifmsh task.sa i action).1.path p = some m') : Moves w (.act k i) m m' := by
  have acts : w.acts (.act k i) task.sa action := ⟨k,i,task,rest,rfl,there,rfl,head⟩
  cases action with
  | routeInfo ie =>
    rcases routeInfo_path before after with quiet | takes
    · exact .mild (mild_of quiet)
    · exact .originator task.sa ie acts takes
  | transmitter ie sta lastHopMetric newMetric expTime process =>
    rcases transmitterInfo_path before after with quiet | takes
    · exact .mild (mild_of quiet)
    · exact .transmitter task.sa ie sta lastHopMetric newMetric expTime process acts takes
  | frame ie metric =>
    cases ie with
    | preq => exact .mild (preq_mild before after)
    | prep prep => exact moves_calm (prep_calm w task.sdata iface ifmsh prep metric) before after
  | perr => exact .mild (perr_mild before after)
  | rann => exact .mild (rann_mild before after)

theorem onMesh_some (ran : w.onMesh s f = some w') : ∃ iface ifmsh, w' = f iface ifmsh := by
  obtain ⟨iface,_,ran⟩ := bind_eq_some_iff.mp ran
  obtain ⟨ifmsh,_,rfl⟩ := map_eq_some_iff.mp ran
  exact ⟨iface,ifmsh,rfl⟩

theorem step_path (ran : step jhash e w = some w') (before : w.path p = some m) (after : w'.path p = some m') :
    Moves w e m m' := by
  cases e with
  | rx =>
    cases ran
    refine moves_calm (calm_tbl ?_) before after
    unfold World.rxPathSelFrame
    split
    · rfl
    · split <;> rfl
  | act =>
    obtain ⟨_,there,ran⟩ := bind_eq_some_iff.mp ran
    unfold World.actTask at ran
    split at ran
    · cases ran
    · rename_i action rest head
      obtain ⟨iface,ifmsh,rfl⟩ := onMesh_some ran
      exact act_path there head before after
  | broken i =>
    obtain ⟨sta,_,rfl⟩ := map_eq_some_iff.mp ran
    obtain ⟨n,there,breaks⟩ := broken_breaks w i sta before
    cases Option.some.inj (there.symm.trans after)
    exact .mild (mild_breaks breaks)
  | discovery s =>
    obtain ⟨iface,ifmsh,rfl⟩ := onMesh_some ran
    exact moves_calm (startDiscovery_calm w s iface ifmsh) before after
  | resolve s target own i =>
    obtain ⟨iface,ifmsh,rfl⟩ := onMesh_some ran
    exact moves_calm (nexthopResolve_calm w s iface ifmsh target own i) before after
  | timer q alloc =>
    obtain ⟨n,there,ran⟩ := bind_eq_some_iff.mp ran
    split at ran
    · obtain ⟨ifmsh,_,rfl⟩ := map_eq_some_iff.mp ran
      exact .mild (timer_mild there ifmsh alloc before after)
    · cases ran
  | addMpath s dst nextHop i =>
    obtain ⟨iface,_,rfl⟩ := map_eq_some_iff.mp ran
    split at after
    · exact moves_calm (Calm.refl _) before after
    have calm := hwmpAdd_calm jhash w s iface dst i.allocPath i.allocNode
    split at after
    · rename_i next e failed
      rw [failed] at calm
      exact moves_calm calm before after
    · rename_i next q added
      rw [added] at calm
      exact fix_moves calm before after
  | changeMpath s dst =>
    simp only [step] at ran
    split at ran
    · cases ran
      exact moves_calm (Calm.refl _) before after
    have calm := lookup_calm jhash w s dst
    split at ran
    · rename_i next missing
      rw [missing] at calm
      cases ran
      exact moves_calm calm before after
    · rename_i next q found
      rw [found] at calm
      cases ran
      exact fix_moves calm before after
  | rootFrame s =>
    obtain ⟨iface,ifmsh,rfl⟩ := onMesh_some ran
    exact moves_calm (calm_tbl (rootFrame_tbl w s iface ifmsh)) before after
  | addSta =>
    cases ran
    exact moves_calm (Calm.refl _) before after
  | plink =>
    obtain ⟨_,_,rfl⟩ := map_eq_some_iff.mp ran
    refine moves_calm ?_ before after
    split
    · exact calm_flush w.tbl .paths _
    · exact Calm.refl _
  | removeSta =>
    obtain ⟨_,_,rfl⟩ := map_eq_some_iff.mp ran
    exact moves_calm (calm_flush w.tbl .paths _) before after
  | table =>
    simp only [step] at ran
    split at ran
    · cases ran
    · rename_i other
      obtain ⟨_,inside,rfl⟩ := map_eq_some_iff.mp ran
      refine moves_calm (table_calm inside ?_) before after
      rintro q n rfl
      exact other rfl

structure Fresh (w : World) (e : Event) (m m' : MeshPath) : Prop where
  sn : m.flags.snValid = true → m'.flags.snValid = true → SnKept m.sn m'.sn ∨
    w.activeNow m = false ∧ ∃ sa ie, w.acts e sa (.routeInfo ie) ∧ ie.origAddr = m.dst ∧ m'.sn = ie.origSn
  nextHop : w.activeNow m = true → m.flags.snValid = true → m'.nextHop ≠ m.nextHop →
    snGt m'.sn m.sn = true ∨ m'.sn = m.sn ∧ m'.metric < m.metric ∨
      m'.sn = m.sn ∧ m'.metric = m.metric ∧ ∃ ie sta lastHopMetric newMetric expTime process,
        w.acts e m.dst (.transmitter ie sta lastHopMetric newMetric expTime process) ∧ m'.nextHop = some sta

theorem moves_fresh (moves : Moves w e m m') (free : m'.flags.fixed = false) : Fresh w e m m' := by
  cases moves with
  | mild mild => exact ⟨fun valid valid' => .inl (mild.sn valid valid'),fun _ _ changed => absurd mild.nextHop changed⟩
  | fixed fixed =>
    rw [free] at fixed
    cases fixed
  | originator sa ie acts takes =>
    constructor
    · intro valid _
      cases active : w.activeNow m with
      | false => exact .inr ⟨rfl,sa,ie,acts,takes.dst,takes.sn⟩
      | true =>
        rcases takes.newer active valid with newer | ⟨same,_⟩
        · exact .inl (.inr newer)
        · exact .inl (.inl same)
    · intro active valid _
      rcases takes.newer active valid with newer | better
      · exact .inl newer
      · exact .inr (.inl better)
  | transmitter sa ie sta lastHopMetric newMetric expTime process acts takes =>
    constructor
    · exact fun _ _ => .inl (.inl takes.sn)
    · intro active _ _
      rcases UInt32.lt_or_eq_of_le (takes.metric active) with better | same
      · exact .inr (.inl ⟨takes.sn,better⟩)
      · rw [takes.dst] at acts
        exact .inr (.inr ⟨takes.sn,same,ie,sta,lastHopMetric,newMetric,expTime,process,acts,takes.nextHop⟩)

inductive FreshRun (jhash : UInt32 → UInt32 → UInt32 → UInt32) (start : World) : World → Prop where
  | refl : FreshRun jhash start start
  | step (prior : FreshRun jhash start before) (ran : step jhash event before = some after)
      (fresh : ∀ (p : Nat) (m m' : MeshPath), before.path p = some m → after.path p = some m' → m'.flags.fixed = false →
        Fresh before event m m') : FreshRun jhash start after

def sampleCfg : MeshCfg where
  elementTtl := 31
  forwarding := true
  netTraversal := 13
  preqMinInt := 3
  perrMinInterval := 100
  discTimeout := 100
  rootConfirmation := 500
  maxPreqRetries := 4
  activePathTimeout := 5000
  activePathToRootTimeout := 6000
  rannInterval := 5000
  pathRefresh := 250
  rootMode := .noRoot
  gateAnnouncement := false

def sampleMesh : World where
  tbl := sampleTables
  mesh := [⟨sampleCfg,0,1000,0,1000,1000,[]⟩]
  stas := [⟨0,macAddr 2 0 0 0 0 2,true,true⟩,⟨0,macAddr 2 0 0 0 0 3,true,true⟩]
  tasks := []
  sent := []

def sampleInputs : Inputs := ⟨100,true,true,true,true⟩

def samplePreq (orig : EthAddr) (sn metric : UInt32) : Elems where
  preq := some (37,⟨0,0,31,1,orig,sn,5000,metric,0,macAddr 2 0 0 0 0 9,0⟩)
  prep := none
  perr := none
  rann := none

def sampleHear (k : Nat) (sa orig : EthAddr) (sn metric : UInt32) : List Event :=
  [.rx 0 sa (samplePreq orig sn metric),.act k sampleInputs]

def sampleHearAll (k : Nat) (sa orig : EthAddr) (sn metric : UInt32) : List Event :=
  sampleHear k sa orig sn metric ++ [.act k sampleInputs]

def sampleNear : EthAddr := macAddr 2 0 0 0 0 2
def sampleOther : EthAddr := macAddr 2 0 0 0 0 3
def sampleFar : EthAddr := macAddr 2 0 0 0 0 7

def sampleMeshAfter (events : List Event) : World := (run sampleHash events sampleMesh).getD sampleMesh

theorem hwmp_fresh (reach : Reach jhash start w) : FreshRun jhash start w := by
  induction reach with
  | refl => exact .refl
  | step prior ran ih => exact .step ih ran fun p m m' before after free => moves_fresh (step_path ran before after) free

theorem hwmp_fresh_sample :
    (sampleMeshAfter (sampleHear 0 sampleNear sampleFar 10 0)).tbl.paths.map (fun m => (m.sn,m.nextHop)) = [(10,some 0)] ∧
      FreshRun sampleHash sampleMesh (sampleMeshAfter (sampleHear 0 sampleNear sampleFar 10 0)) := by
  have ran : run sampleHash (sampleHear 0 sampleNear sampleFar 10 0) sampleMesh =
      some (sampleMeshAfter (sampleHear 0 sampleNear sampleFar 10 0)) := by decide +kernel
  exact ⟨by decide +kernel,hwmp_fresh (Transitions.run_reach .step .refl ran)⟩

def Moved (change : World → MeshPath → MeshPath → Bool) : Prop :=
  ∃ (w : World) (e : Event) (w' : World) (p : Nat) (m m' : MeshPath), Reach sampleHash sampleMesh w ∧
    step sampleHash e w = some w' ∧ w.path p = some m ∧ w'.path p = some m' ∧ m.flags.fixed = false ∧
    m'.flags.fixed = false ∧ change w m m' = true

theorem moved_of (events : List Event) (e : Event) (p : Nat) (change : World → MeshPath → MeshPath → Bool)
    (moves : (run sampleHash events sampleMesh).any (fun w => (step sampleHash e w).any fun w' =>
      (w.path p).any fun m => (w'.path p).any fun m' => !m.flags.fixed && !m'.flags.fixed && change w m m') = true) :
    Moved change := by
  obtain ⟨w,ran,moves⟩ := (any_eq_true _ _).mp moves
  obtain ⟨w',stepped,moves⟩ := (any_eq_true _ _).mp moves
  obtain ⟨m,before,moves⟩ := (any_eq_true _ _).mp moves
  obtain ⟨m',after,moves⟩ := (any_eq_true _ _).mp moves
  simp only [Bool.and_eq_true,Bool.not_eq_true'] at moves
  exact ⟨w,e,w',p,m,m',Transitions.run_reach .step .refl ran,stepped,before,after,moves.1.1,moves.1.2,moves.2⟩

-- An inactive path takes an older number. An active one changes its next hop without a newer one when the
-- destination is heard itself, or when it has no number.
theorem hwmp_stale :
    Moved (fun _ m m' => m.flags.snValid && m'.flags.snValid && m'.sn != m.sn && !snGt m'.sn m.sn) ∧
      Moved (fun w m m' => w.activeNow m && m.flags.snValid && m'.nextHop != m.nextHop && m'.sn == m.sn &&
        m'.metric == m.metric) ∧
      Moved (fun w m m' => w.activeNow m && m'.nextHop != m.nextHop && m'.sn != m.sn && !snGt m'.sn m.sn) := by
  refine ⟨?_,?_,?_⟩
  · exact moved_of (sampleHear 0 sampleNear sampleFar 10 0 ++ [.broken 0,.rx 0 sampleNear (samplePreq sampleFar 5 0)])
      (.act 1 sampleInputs) 0 _ (by decide +kernel)
  · exact moved_of (sampleHear 0 sampleOther sampleNear 7 0 ++ sampleHear 1 sampleNear sampleFar 5 0) (.act 1 sampleInputs) 0 _
      (by decide +kernel)
  · exact moved_of (sampleHearAll 0 sampleNear sampleFar 5 0 ++ [.rx 0 sampleOther (samplePreq sampleNear 0x90000000 0)])
      (.act 1 sampleInputs) 1 _ (by decide +kernel)

end runs

end Mac80211.MeshHwmp

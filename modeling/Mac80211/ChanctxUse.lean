import Mac80211.Chanctx
import Mac80211.Loops

namespace Mac80211.Chan

-- What ieee80211_vif_use_channel checks first, an allocation, the driver, and the interfaces running (in
-- their list, without those of an AP_VLAN).
structure Env where
  allowed : Option Errno
  answers : Answers
  assign : Nat → Option Errno
  reassign : Nat → Option Errno
  switchAlloc : Bool
  switchVifs : Option Errno
  addCtx : Nat → Option Errno
  running : List Nat

-- again is -EAGAIN.
inductive Switched where
  | done
  | again
  | failed (err : Errno)

structure Counts where
  ctx : Nat
  vifsSwitch : Nat
  vifsAssign : Nat
  vifsCtxless : Nat

def World.state (w : World) (addr : Nat) : Option ReplaceState := (w.ctx addr).map Chanctx.replaceState
def World.assignedTo (w : World) (addr : Nat) : List Nat := ((w.ctx addr).map Chanctx.assignedVifs).getD []
def World.reservedBy (w : World) (addr : Nat) : List Nat := ((w.ctx addr).map Chanctx.reservedVifs).getD []

def World.listDel (w : World) (i : Nat) : World :=
  {w with chanctxList := w.chanctxList.map fun ctx => {ctx with assignedVifs := ctx.assignedVifs.erase i}}

def World.listAdd (w : World) (i addr : Nat) : World := w.setCtx addr fun ctx => {ctx with assignedVifs := i :: ctx.assignedVifs}

def World.setConf (w : World) (i : Nat) (conf : Option Nat) : World := w.setVif i fun vif => {vif with chanctxConf := conf}

-- An interface that is not an AP has no VLANs.
def World.copyToVlans (w : World) (i : Nat) (clear : Bool) : World :=
  w.setVif i fun vif => {vif with vlans := vif.vlans.map fun _ => if clear then none else vif.chanctxConf}

def World.dropReserved (w : World) (i addr : Nat) : World :=
  (w.setCtx addr fun ctx => {ctx with reservedVifs := ctx.reservedVifs.erase i}).setVif i fun vif => {vif with reservedChanctx := none}

section chan
variable (cfg : Config) (env : Env) (w : World)

def freeIdle (addr : Nat) : World := if (w.ctx addr).all fun ctx => ctx.refcount == 0 then freeChanctx w addr else w

def changeChanctx (addr : Nat) (chandef : Chandef) : World := w.setCtx addr fun ctx => {ctx with chandef := chandef}

def recalcChanctxChantype (addr : Nat) : World :=
  match (env.running.filter fun i => (w.vifs i).chanctxConf == some addr).map fun i => (w.vifs i).chandef with
  | [] => w
  | first :: rest =>
    match narrow cfg (first :: rest) none with
    | none => w
    | some compat => changeChanctx w addr compat

-- With the channel definition given to ieee80211_change_chanctx.
def findChanctx (chandef : Chandef) (mode : Mode) : Option (Chanctx × Chandef) :=
  if mode = .exclusive then none
  else w.chanctxList.findSome? fun ctx =>
    if ctx.replaceState ≠ .unreplaced ∨ ctx.mode = .exclusive then none
    else
      match cfg.compatible ctx.chandef chandef with
      | none => none
      | some compat => (reservedChandef cfg w ctx (some compat)).map fun compat => (ctx,compat)

def recalcLeft (currCtx : Option Nat) : World :=
  match currCtx with
  | none => w
  | some oldCtx => if w.assignedTo oldCtx = [] then w else recalcChanctxChantype cfg env w oldCtx

def assignVifChanctx (i : Nat) (newCtx : Option Nat) : World × Option Errno :=
  let currCtx := (w.vifs i).chanctxConf
  let w := if currCtx.isSome then w.listDel i else w
  match newCtx with
  | none => (recalcLeft cfg env (w.setConf i none) currCtx,none)
  | some addr =>
    match env.assign i with
    | some err => (recalcLeft cfg env (w.setConf i none) currCtx,some err)
    | none => (recalcLeft cfg env ((w.listAdd i addr).setConf i (some addr)) currCtx,none)

def vifUpdateChandef (i : Nat) (chandef : Chandef) : World := w.setVif i fun vif => {vif with chandef := chandef}

def usable (i addr : Nat) : Bool :=
  match w.ctx addr with
  | none => false
  | some ctx => ctx.replaceState != .replacesOther && (nonReservedChandef cfg w ctx (some (w.vifs i).reservedChandef)).isSome

def vifUseReservedReassign (i : Nat) : World × Option Errno :=
  if !(w.vifs i).reservedReady then (w,some .busy)
  else
    match (w.vifs i).reservedChanctx,(w.vifs i).chanctxConf with
    | some newCtx,some oldCtx =>
      if !usable cfg w i newCtx then (w,some .inval)
      else
        let w := w.dropReserved i newCtx
        match env.reassign i with
        | some err => (freeIdle w newCtx,some err)
        | none =>
          let w := freeIdle ((((w.listDel i).listAdd i newCtx).setConf i (some newCtx)).copyToVlans i false) oldCtx
          (vifUpdateChandef w i (w.vifs i).reservedChandef,none)
    | _,_ => (w,some .inval)

def vifUseReservedAssign (i : Nat) : World × Option Errno :=
  if !(w.vifs i).reservedReady then (w,some .inval)
  else
    match (w.vifs i).reservedChanctx,(w.vifs i).chanctxConf with
    | some newCtx,none =>
      if !usable cfg w i newCtx then (w,some .inval)
      else
        let out := assignVifChanctx cfg env (w.dropReserved i newCtx) i (some newCtx)
        (if out.2.isSome then freeIdle out.1 newCtx else out.1,out.2)
    | _,_ => (w,some .inval)

def vifHasInPlaceReservation (i : Nat) : Bool :=
  match (w.vifs i).chanctxConf,(w.vifs i).reservedChanctx with
  | some oldCtx,some newCtx => w.state oldCtx == some .willBeReplaced && w.state newCtx == some .replacesOther
  | _,_ => false

-- The first loop of ieee80211_vif_use_reserved_switch.
def countVif (n : Counts) (i : Nat) : Except Switched Counts :=
  if vifHasInPlaceReservation w i && !(w.vifs i).reservedReady then .error .again
  else
    match (w.vifs i).chanctxConf with
    | none => .ok {n with vifsCtxless := n.vifsCtxless + 1}
    | some oldCtx =>
      if w.state oldCtx = some .willBeReplaced then .ok {n with vifsSwitch := n.vifsSwitch + 1}
      else .ok {n with vifsAssign := n.vifsAssign + 1}

def countCtx (n : Counts) (ctx : Chanctx) : Except Switched Counts :=
  if ctx.replaceState ≠ .replacesOther then .ok n
  else
    match ctx.replaceCtx with
    | none => .error (.failed .inval)
    | some oldCtx =>
      let assigned := w.assignedTo oldCtx
      let reserved := assigned.filter fun i => (w.vifs i).reservedChanctx.isSome
      let ready := reserved.filter fun i => (w.vifs i).reservedReady
      if assigned.length ≠ reserved.length then .error (if ready.length = reserved.length then .failed .busy else .again)
      else ctx.reservedVifs.foldlM (countVif w) {n with ctx := n.ctx + 1}

def countSwitch : Except Switched Counts := w.chanctxList.foldlM (countCtx w) ⟨0,0,0,0⟩

def chswSwitchVifs : Option Errno := if !env.switchAlloc then some .noMem else env.switchVifs

def chswSwitchCtxs : Option Errno :=
  w.chanctxList.findSome? fun ctx =>
    if ctx.replaceState = .replacesOther ∧ ctx.replaceCtx.map w.assignedTo = some [] then env.addCtx ctx.addr else none

def chswSwitchHwconf : Option Errno :=
  match (w.chanctxList.filter fun ctx => ctx.replaceState == .replacesOther).getLast? with
  | none => some .inval
  | some ctx => if (reservedChandef cfg w ctx none).isNone then some .inval else none

def chswSwitch (n : Counts) : Option Errno :=
  if n.ctx = 0 ∨ n.vifsSwitch = 0 ∧ n.vifsAssign = 0 ∧ n.vifsCtxless = 0 ∨ 1 < n.ctx ∧ !cfg.useChanctx then some .inval
  else if !cfg.useChanctx then chswSwitchHwconf cfg w
  else
    match if 0 < n.vifsSwitch then chswSwitchVifs env else none with
    | some err => some err
    | none => if 0 < n.vifsAssign ∨ 0 < n.vifsCtxless then chswSwitchCtxs env w else none

-- The three loops over the interfaces with a context that replaces another; the last is about deferred
-- reservations.
def switchConf (addr : Nat) (w : World) (i : Nat) : World :=
  if !vifHasInPlaceReservation w i then w
  else vifUpdateChandef ((w.setConf i (some addr)).copyToVlans i false) i (w.vifs i).reservedChandef

def switchLists (addr : Nat) (w : World) (i : Nat) : World :=
  if (w.vifs i).chanctxConf ≠ some addr then w else ((w.dropReserved i addr).listDel i).listAdd i addr

def finalizeDeferred (addr : Nat) (w : World) (i : Nat) : World :=
  if vifHasInPlaceReservation w i || (w.vifs i).reservedChanctx != some addr || !(w.vifs i).reservedReady then w
  else
    let out := if (w.vifs i).chanctxConf.isSome then vifUseReservedReassign cfg env w i else vifUseReservedAssign cfg env w i
    if out.2.isSome then vifUnreserveChanctx out.1 i else out.1

def switchVifs (addr : Nat) : World :=
  let w := (w.reservedBy addr).foldl (switchConf addr) w
  let w := recalcChanctxChantype cfg env w addr
  let w := (w.reservedBy addr).foldl (switchLists addr) w
  (w.reservedBy addr).foldl (finalizeDeferred cfg env addr) w

-- An error is the world in which the loop has stopped.
def switchCtx (w : World) (addr : Nat) : Except World World :=
  match w.ctx addr with
  | none => .ok w
  | some ctx =>
    if ctx.replaceState ≠ .replacesOther then .ok w
    else if ctx.replaceCtx = none then .error w
    else .ok (switchVifs cfg env w addr)

def freeReplaced (w : World) (addr : Nat) : World :=
  match w.ctx addr with
  | none => w
  | some ctx =>
    if ctx.replaceState ≠ .willBeReplaced then w
    else
      match ctx.replaceCtx with
      | none => freeChanctx w addr
      | some newCtx => freeChanctx (w.setCtx newCtx fun ctx => {ctx with replaceCtx := none,replaceState := .unreplaced}) addr

def unreserveAll (w : World) (addr : Nat) : World :=
  if w.state addr = some .replacesOther then (w.reservedBy addr).foldl vifUnreserveChanctx w else w

def World.addrs (w : World) : List Nat := w.chanctxList.map Chanctx.addr

def switchFailed : World := w.addrs.foldl unreserveAll w

def vifUseReservedSwitch : World × Switched :=
  match countSwitch w with
  | .error (.failed err) => (switchFailed w,.failed err)
  | .error stop => (w,stop)
  | .ok n =>
    match chswSwitch cfg env w n with
    | some err => (switchFailed w,.failed err)
    | none =>
      match w.addrs.foldlM (switchCtx cfg env) w with
      | .error w => (switchFailed w,.failed .inval)
      | .ok w => (w.addrs.foldl freeReplaced w,.done)

def leaveChanctx (i oldCtx : Nat) : World := freeIdle (assignVifChanctx cfg env (vifUnreserveChanctx w i) i none).1 oldCtx

def useReservedSwitch (i : Nat) : Bool :=
  match (w.vifs i).reservedChanctx with
  | none => false
  | some newCtx => w.state newCtx == some .replacesOther && decide (1 < (w.reservedBy newCtx).length)

def vifReleaseChannel (i : Nat) : World :=
  match (w.vifs i).chanctxConf with
  | none => w
  | some oldCtx =>
    let left := leaveChanctx cfg env w i oldCtx
    if useReservedSwitch w i then (vifUseReservedSwitch cfg env left).1 else left

def takeChanctx (answers : Answers) (chandef : Chandef) (mode : Mode) : World × Except Errno Nat :=
  match findChanctx cfg w chandef mode with
  | some (ctx,compat) => (changeChanctx w ctx.addr compat,.ok ctx.addr)
  | none => newChanctx cfg w answers chandef mode

def vifUseChannel (i : Nat) (chandef : Chandef) (mode : Mode) : World × Option Errno :=
  match env.allowed with
  | some err => (w,some err)
  | none =>
    match takeChanctx cfg (vifReleaseChannel cfg env w i) env.answers chandef mode with
    | (w,.error err) => (w,some err)
    | (w,.ok addr) =>
      let out := assignVifChanctx cfg env (vifUpdateChandef w i chandef) i (some addr)
      (if out.2.isSome then freeIdle out.1 addr else out.1,out.2)

def World.setReady (w : World) (i : Nat) : World := w.setVif i fun vif => {vif with reservedReady := true}

def useReservedPlain (i newCtx : Nat) : World × Option Errno :=
  if w.state newCtx ≠ some .unreplaced then (w,none)
  else if (w.vifs i).chanctxConf.isSome then vifUseReservedReassign cfg env w i
  else vifUseReservedAssign cfg env w i

-- The in-place reservation of the interface, or one that waits for it to leave the old context.
def switchDue (i newCtx : Nat) : Bool :=
  (w.vifs i).chanctxConf.bind w.state == some .willBeReplaced || w.state newCtx == some .replacesOther

-- The state of the old context is read after it may have been freed; kfree_rcu leaves it as it was.
def vifUseReservedContext (i : Nat) : World × Option Errno :=
  match (w.vifs i).reservedChanctx with
  | none => (w,some .inval)
  | some newCtx =>
    if w.state newCtx = some .willBeReplaced ∨ (w.vifs i).reservedReady then (w,some .inval)
    else
      let out := useReservedPlain cfg env (w.setReady i) i newCtx
      if out.2.isSome || !switchDue w i newCtx then out
      else
        match vifUseReservedSwitch cfg env out.1 with
        | (after,.failed err) => (after,if w.state newCtx = some .replacesOther then some err else none)
        | (after,_) => (after,none)

end chan

inductive Event where
  | useChannel (env : Env) (i : Nat) (chandef : Chandef) (mode : Mode)
  | releaseChannel (env : Env) (i : Nat)
  | reserve (answers : Answers) (i : Nat) (chandef : Chandef) (mode : Mode) (radarRequired : Bool)
  | unreserve (i : Nat)
  | useReserved (env : Env) (i : Nat)
  | copyToVlans (i : Nat) (clear : Bool)
  | openVlan (i : Nat) (beacon : Bool)
  | closeVlan (i n : Nat)

def vifVlanCopyChanctx (w : World) (i : Nat) (beacon : Bool) : World :=
  w.setVif i fun vif => {vif with vlans := (if beacon then vif.chanctxConf else none) :: vif.vlans}

def step (cfg : Config) (w : World) : Event → World
  | .useChannel env i chandef mode => (vifUseChannel cfg env w i chandef mode).1
  | .releaseChannel env i => vifReleaseChannel cfg env w i
  | .reserve answers i chandef mode radarRequired => (vifReserveChanctx cfg w answers i chandef mode radarRequired).1
  | .unreserve i => vifUnreserveChanctx w i
  | .useReserved env i => (vifUseReservedContext cfg env w i).1
  | .copyToVlans i clear => w.copyToVlans i clear
  | .openVlan i beacon => vifVlanCopyChanctx w i beacon
  | .closeVlan i n => w.setVif i fun vif => {vif with vlans := vif.vlans.eraseIdx n}

-- No context and no reservation, so that others' switches leave it alone.
def Vif.Loose (vif : Vif) : Prop := vif.chanctxConf = none ∧ vif.reservedChanctx = none

def Vif.Copied (vif : Vif) : Prop := ∀ conf ∈ vif.vlans, conf = none ∨ conf = vif.chanctxConf

structure Vif.Keeps (vif after : Vif) : Prop where
  loose : vif.Loose → after.Loose
  copied : vif.Copied → after.Copied

theorem Vif.Copied.cleared {vif : Vif} (copied : vif.Copied) (free : vif.chanctxConf = none) : ∀ conf ∈ vif.vlans, conf = none :=
  fun conf member => (copied conf member).elim id (·.trans free)

def World.Keeps (w after : World) : Prop := ∀ i, (w.vifs i).Keeps (after.vifs i)

section keeps
open Loops
variable {w : World}

theorem World.Keeps.refl (w : World) : w.Keeps w := fun _ => ⟨id,id⟩

theorem World.Keeps.trans (first : w.Keeps mid) (second : mid.Keeps after) : w.Keeps after := fun i =>
  ⟨(second i).loose ∘ (first i).loose,(second i).copied ∘ (first i).copied⟩

theorem keeps_same (same : after.vifs = w.vifs) : w.Keeps after := fun _ => same ▸ ⟨id,id⟩

theorem keeps_update (i : Nat) (vif : Vif) (vifs : after.vifs = Function.update w.vifs i vif) (keeps : (w.vifs i).Keeps vif) : w.Keeps after := by
  intro j
  rw [vifs,Function.update_apply]
  split
  · next same => exact same ▸ keeps
  · exact ⟨id,id⟩

theorem freeIdle_vifs (w : World) (addr : Nat) : (freeIdle w addr).vifs = w.vifs := by
  unfold freeIdle
  split <;> rfl

theorem recalc_vifs (w : World) (addr : Nat) : (recalcChanctxChantype cfg env w addr).vifs = w.vifs := by
  unfold recalcChanctxChantype
  split
  · rfl
  · split <;> rfl

theorem recalcLeft_vifs (w : World) (curr : Option Nat) : (recalcLeft cfg env w curr).vifs = w.vifs := by
  unfold recalcLeft
  split
  · rfl
  · split
    · rfl
    · exact recalc_vifs _ _

theorem assign_vifs (cfg : Config) (env : Env) (w : World) (i : Nat) (newCtx : Option Nat) :
    (assignVifChanctx cfg env w i newCtx).1.vifs = Function.update w.vifs i {w.vifs i with
      chanctxConf := if (assignVifChanctx cfg env w i newCtx).2.isSome then none else newCtx} := by
  have same (idle : Bool) : (if idle then w.listDel i else w).vifs = w.vifs := by cases idle <;> rfl
  unfold assignVifChanctx
  split
  · rw [recalcLeft_vifs,World.setConf,World.setVif,same]
    rfl
  · split <;> rw [recalcLeft_vifs,World.setConf,World.setVif] <;> dsimp only [World.listAdd,World.setCtx] <;> rw [same] <;> rfl

theorem unreserve_keeps (w : World) (i : Nat) : w.Keeps (vifUnreserveChanctx w i) :=
  keeps_update _ _ (unreserve_vifs w i) ⟨fun loose => ⟨loose.1,rfl⟩,id⟩

theorem dropReserved_keeps (w : World) (i addr : Nat) : w.Keeps (w.dropReserved i addr) :=
  keeps_update _ _ rfl ⟨fun loose => ⟨loose.1,rfl⟩,id⟩

-- Without a context the VLANs have none, so that one can be taken before they are told.
theorem reservedAssign_keeps (cfg : Config) (env : Env) (w : World) (i : Nat) : w.Keeps (vifUseReservedAssign cfg env w i).1 := by
  unfold vifUseReservedAssign
  split
  · exact .refl w
  split
  · next newCtx reserved free =>
    split
    · exact .refl w
    have vifs := assign_vifs cfg env (w.dropReserved i newCtx) i (some newCtx)
    generalize assignVifChanctx cfg env (w.dropReserved i newCtx) i (some newCtx) = out at vifs
    have taken : w.Keeps out.1 := by
      refine keeps_update _ _ (vifs.trans (Function.update_idem ..)) ⟨fun loose => (nomatch loose.2.symm.trans reserved),fun copied conf member => .inl ?_⟩
      have own : ((w.dropReserved i newCtx).vifs i).vlans = (w.vifs i).vlans := by
        rw [World.dropReserved,setVif_self]
        rfl
      exact copied.cleared free conf (own ▸ member)
    dsimp only
    split
    · exact taken.trans (keeps_same (freeIdle_vifs _ _))
    · exact taken
  · exact .refl w

theorem reassign_keeps (cfg : Config) (env : Env) (w : World) (i : Nat) : w.Keeps (vifUseReservedReassign cfg env w i).1 := by
  unfold vifUseReservedReassign
  split
  · exact .refl w
  split
  · next newCtx oldCtx reserved _ =>
    split
    · exact .refl w
    split
    · exact (dropReserved_keeps w i newCtx).trans (keeps_same (freeIdle_vifs _ _))
    · refine keeps_update i {w.vifs i with
        chanctxConf := some newCtx,
        reservedChanctx := none,
        vlans := (w.vifs i).vlans.map fun _ => some newCtx,
        chandef := (w.vifs i).reservedChandef} ?_ ⟨fun loose => (nomatch loose.2.symm.trans reserved),fun _ conf member => .inr ?_⟩
      · simp [vifUpdateChandef,World.setVif,freeIdle_vifs,World.copyToVlans,World.setConf,World.listAdd,World.setCtx,World.listDel,
          World.dropReserved]
      · obtain ⟨_,_,same⟩ := List.mem_map.mp member
        exact same.symm
  · exact .refl w

theorem foldl_keeps (keeps : ∀ (w : World) a, w.Keeps (f w a)) (list : List Nat) (w : World) : w.Keeps (list.foldl f w) := by
  induction list generalizing w with
  | nil => exact .refl w
  | cons a list ih => exact (keeps w a).trans (ih (f w a))

theorem switchConf_keeps (addr : Nat) (w : World) (i : Nat) : w.Keeps (switchConf addr w i) := by
  unfold switchConf
  split
  · exact .refl w
  · next inPlace =>
    refine keeps_update i {w.vifs i with
      chanctxConf := some addr,
      vlans := (w.vifs i).vlans.map fun _ => some addr,
      chandef := (w.vifs i).reservedChandef} ?_ ⟨fun loose => ?_,fun _ conf member => .inr ?_⟩
    · simp [vifUpdateChandef,World.setVif,World.copyToVlans,World.setConf]
    · rw [vifHasInPlaceReservation,loose.1] at inPlace
      exact absurd rfl inPlace
    · obtain ⟨_,_,same⟩ := List.mem_map.mp member
      exact same.symm

theorem switchLists_keeps (addr : Nat) (w : World) (i : Nat) : w.Keeps (switchLists addr w i) := by
  unfold switchLists
  split
  · exact .refl w
  · exact dropReserved_keeps w i addr

theorem finalizeDeferred_keeps (addr : Nat) (w : World) (i : Nat) : w.Keeps (finalizeDeferred cfg env addr w i) := by
  unfold finalizeDeferred
  split
  · exact .refl w
  · dsimp only
    split <;> split
    · exact (reassign_keeps cfg env w i).trans (unreserve_keeps _ i)
    · exact reassign_keeps cfg env w i
    · exact (reservedAssign_keeps cfg env w i).trans (unreserve_keeps _ i)
    · exact reservedAssign_keeps cfg env w i

theorem switchVifs_keeps (w : World) (addr : Nat) : w.Keeps (switchVifs cfg env w addr) := by
  have confs := (foldl_keeps (switchConf_keeps addr) (w.reservedBy addr) w).trans (keeps_same (@recalc_vifs cfg env _ addr))
  exact (confs.trans (foldl_keeps (switchLists_keeps addr) _ _)).trans (foldl_keeps (finalizeDeferred_keeps addr) _ _)

theorem switchCtx_keeps (ran : switchCtx cfg env w addr = out) :
    (∀ after, out = .ok after → w.Keeps after) ∧ ∀ after, out = .error after → w.Keeps after := by
  unfold switchCtx at ran
  split at ran
  · exact ⟨fun _ ok => by cases ran.trans ok; exact .refl w,fun _ stop => nomatch ran.trans stop⟩
  · split at ran
    · exact ⟨fun _ ok => by cases ran.trans ok; exact .refl w,fun _ stop => nomatch ran.trans stop⟩
    · split at ran
      · exact ⟨fun _ ok => (nomatch ran.trans ok),fun _ stop => by cases ran.trans stop; exact .refl w⟩
      · exact ⟨fun _ ok => by cases ran.trans ok; exact switchVifs_keeps w addr,fun _ stop => nomatch ran.trans stop⟩

theorem switchFailed_keeps (w : World) : w.Keeps (switchFailed w) := by
  refine foldl_keeps (fun w addr => ?_) _ w
  unfold unreserveAll
  split
  · exact foldl_keeps unreserve_keeps _ w
  · exact .refl w

theorem freeReplaced_vifs (w : World) (addr : Nat) : (freeReplaced w addr).vifs = w.vifs := by
  unfold freeReplaced
  split
  · rfl
  · split
    · rfl
    · split <;> rfl

theorem reservedSwitch_keeps (cfg : Config) (env : Env) (w : World) : w.Keeps (vifUseReservedSwitch cfg env w).1 := by
  unfold vifUseReservedSwitch
  split
  · exact switchFailed_keeps w
  · exact .refl w
  · split
    · exact switchFailed_keeps w
    · split
      · next stop =>
        obtain ⟨s,addr,before,last⟩ := exceptFold_stops w.Keeps _ (.refl w) (fun s addr t kept ran => kept.trans ((switchCtx_keeps ran).1 t rfl)) stop
        exact (before.trans ((switchCtx_keeps last).2 _ rfl)).trans (switchFailed_keeps _)
      · next done =>
        have switched := exceptFold_keeps w.Keeps _ (.refl w) (fun s addr _ t kept ran => kept.trans ((switchCtx_keeps ran).1 t rfl)) done
        exact switched.trans (foldl_keeps (fun w addr => keeps_same (freeReplaced_vifs w addr)) _ _)

theorem leave_vifs (cfg : Config) (env : Env) (w : World) (i addr : Nat) : (leaveChanctx cfg env w i addr).vifs =
    Function.update w.vifs i {w.vifs i with chanctxConf := none,reservedChanctx := none} := by
  unfold leaveChanctx
  rw [freeIdle_vifs,assign_vifs,unreserve_vifs,Function.update_idem,Function.update_self,ite_self]

theorem release_loose (cfg : Config) (env : Env) (w : World) (i : Nat) (held : (w.vifs i).chanctxConf ≠ none) :
    ((vifReleaseChannel cfg env w i).vifs i).Loose := by
  unfold vifReleaseChannel
  split
  · next free => exact absurd free held
  · have left (addr : Nat) : ((leaveChanctx cfg env w i addr).vifs i).Loose := by
      rw [leave_vifs,Function.update_self]
      exact ⟨rfl,rfl⟩
    split
    · exact (reservedSwitch_keeps cfg env _ i).loose (left _)
    · exact left _

theorem release_free (cfg : Config) (env : Env) (w : World) (i : Nat) : ((vifReleaseChannel cfg env w i).vifs i).chanctxConf = none := by
  by_cases held : (w.vifs i).chanctxConf = none
  · unfold vifReleaseChannel
    rwa [held]
  · exact (release_loose cfg env w i held).1

end keeps

end Mac80211.Chan

import Mathlib.Tactic.Common

namespace Mac80211.Chan

inductive Errno where
  | noMem | busy | inval | noEnt | notSupp | opNotSupp
  | driver (err : Nat)

inductive Width where
  | noHt20 | w20 | w40 | w80 | w80p80 | w160 | w5 | w10
deriving DecidableEq

structure Chandef where
  chan : Nat
  band : Nat
  centerFreq : Nat
  width : Width
  centerFreq1 : Nat
  centerFreq2 : Nat
deriving DecidableEq

inductive Mode where
  | shared | exclusive
deriving DecidableEq

inductive ReplaceState where
  | unreplaced | willBeReplaced | replacesOther
deriving DecidableEq

structure Heap where
  allocated : List Nat
  next : Nat

def Heap.alloc (h : Heap) : Heap := ⟨h.next :: h.allocated,h.next + 1⟩
def Heap.free (h : Heap) (addr : Nat) : Heap := {h with allocated := h.allocated.erase addr}

-- An interface is a number; contexts are known by their address.
structure Chanctx where
  addr : Nat
  chandef : Chandef
  mode : Mode
  replaceState : ReplaceState
  replaceCtx : Option Nat
  assignedVifs : List Nat
  reservedVifs : List Nat

-- What struct ieee80211_sub_if_data says about channel contexts; for an AP, vlans has the chanctx_conf of its
-- open VLANs.
structure Vif where
  chanctxConf : Option Nat
  chandef : Chandef
  reservedChanctx : Option Nat
  reservedChandef : Chandef
  reservedRadarRequired : Bool
  reservedReady : Bool
  vlans : List (Option Nat)

structure World where
  chanctxList : List Chanctx
  vifs : Nat → Vif
  heap : Heap

structure Config where
  useChanctx : Bool
  switchVifChanctx : Bool
  maxNumChannels : Nat
  compatible : Chandef → Chandef → Option Chandef

structure Answers where
  alloc : Bool
  add : Option Errno

def World.ctx (w : World) (addr : Nat) : Option Chanctx := w.chanctxList.find? fun ctx => ctx.addr == addr

def World.setCtx (w : World) (addr : Nat) (f : Chanctx → Chanctx) : World :=
  {w with chanctxList := w.chanctxList.map fun ctx => if ctx.addr = addr then f ctx else ctx}

def World.setVif (w : World) (i : Nat) (f : Vif → Vif) : World := {w with vifs := Function.update w.vifs i (f (w.vifs i))}

def Chanctx.refcount (ctx : Chanctx) : Nat := ctx.assignedVifs.length + ctx.reservedVifs.length

section chanctx
variable (cfg : Config) (w : World)

def narrow : List Chandef → Option Chandef → Option Chandef
  | [],compat => compat
  | chandef :: rest,compat =>
    match cfg.compatible chandef (compat.getD chandef) with
    | none => none
    | some compat => narrow rest (some compat)

def reservedChandef (ctx : Chanctx) (compat : Option Chandef) : Option Chandef :=
  narrow cfg (ctx.reservedVifs.map fun i => (w.vifs i).reservedChandef) compat

def nonReservedChandef (ctx : Chanctx) (compat : Option Chandef) : Option Chandef :=
  narrow cfg ((ctx.assignedVifs.filter fun i => (w.vifs i).reservedChanctx.isNone).map fun i => (w.vifs i).chandef) compat

def combinedChandef (ctx : Chanctx) (compat : Option Chandef) : Option Chandef :=
  match reservedChandef cfg w ctx compat with
  | none => none
  | some compat => nonReservedChandef cfg w ctx (some compat)

def canReserveChandef (ctx : Chanctx) (chandef : Chandef) : Bool :=
  (combinedChandef cfg w ctx (some chandef)).isSome ||
    !ctx.reservedVifs.isEmpty && (reservedChandef cfg w ctx (some chandef)).isSome

def findReservationChanctx (chandef : Chandef) (mode : Mode) : Option Chanctx :=
  if mode = .exclusive then none
  else w.chanctxList.find? fun ctx =>
    ctx.replaceState != .willBeReplaced && ctx.mode != .exclusive && canReserveChandef cfg w ctx chandef

def canCreateNewChanctx : Bool := decide (w.chanctxList.length < cfg.maxNumChannels)

def freshChanctx (chandef : Chandef) (mode : Mode) : Chanctx := ⟨w.heap.next,chandef,mode,.unreplaced,none,[],[]⟩

def newChanctx (answers : Answers) (chandef : Chandef) (mode : Mode) : World × Except Errno Nat :=
  if !answers.alloc then (w,.error .noMem)
  else
    match if cfg.useChanctx then answers.add else none with
    | some err => ({w with heap := w.heap.alloc.free w.heap.next},.error err)
    | none => ({w with chanctxList := freshChanctx w chandef mode :: w.chanctxList,heap := w.heap.alloc},.ok w.heap.next)

def freeChanctx (addr : Nat) : World := {w with
  chanctxList := w.chanctxList.eraseP fun ctx => ctx.addr == addr,
  heap := w.heap.free addr}

def Chanctx.taken (ctx : Chanctx) : Bool := ctx.replaceState == .willBeReplaced || !ctx.reservedVifs.isEmpty

def replaceable (curr : Option Chanctx) : Option Chanctx :=
  let curr := if curr.all Chanctx.taken then
      (w.chanctxList.find? fun ctx => ctx.replaceState == .unreplaced && ctx.reservedVifs.isEmpty).orElse fun _ => curr
    else curr
  curr.filter fun ctx => !ctx.taken

def reserve (i addr : Nat) (chandef : Chandef) (radarRequired : Bool) : World :=
  (w.setCtx addr fun ctx => {ctx with reservedVifs := i :: ctx.reservedVifs}).setVif i fun vif => {vif with
    reservedChanctx := some addr,
    reservedChandef := chandef,
    reservedRadarRequired := radarRequired,
    reservedReady := false}

def vifReserveChanctx (answers : Answers) (i : Nat) (chandef : Chandef) (mode : Mode) (radarRequired : Bool) : World × Option Errno :=
  let curr := (w.vifs i).chanctxConf
  if curr.isSome && cfg.useChanctx && !cfg.switchVifChanctx then (w,some .notSupp)
  else
    match findReservationChanctx cfg w chandef mode with
    | some ctx => (reserve w i ctx.addr chandef radarRequired,none)
    | none =>
      if canCreateNewChanctx cfg w then
        match newChanctx cfg w answers chandef mode with
        | (w,.error err) => (w,some err)
        | (w,.ok addr) => (reserve w i addr chandef radarRequired,none)
      else
        match replaceable w (curr.bind w.ctx) with
        | none => (w,some .busy)
        | some old =>
          if !answers.alloc then (w,some .noMem)
          else
            let new := {freshChanctx w chandef mode with replaceCtx := some old.addr,replaceState := .replacesOther}
            let w := w.setCtx old.addr fun ctx => {ctx with replaceCtx := some new.addr,replaceState := .willBeReplaced}
            (reserve {w with chanctxList := new :: w.chanctxList,heap := w.heap.alloc} i new.addr chandef radarRequired,none)

def freeUnused (addr : Nat) : World :=
  match w.ctx addr with
  | none => w
  | some ctx =>
    if ctx.refcount ≠ 0 then w
    else if ctx.replaceState = .replacesOther then
      match ctx.replaceCtx with
      | none => w
      | some old => freeChanctx (w.setCtx old fun ctx => {ctx with replaceCtx := none,replaceState := .unreplaced}) addr
    else freeChanctx w addr

def vifUnreserveChanctx (i : Nat) : World :=
  match (w.vifs i).reservedChanctx with
  | none => w
  | some addr =>
    let w := w.setCtx addr fun ctx => {ctx with reservedVifs := ctx.reservedVifs.erase i}
    freeUnused (w.setVif i fun vif => {vif with reservedChanctx := none}) addr

end chanctx

section reserve

theorem setVif_self (w : World) (i : Nat) (f : Vif → Vif) : (w.setVif i f).vifs i = f (w.vifs i) := Function.update_self ..

theorem reserve_vif (w : World) (i addr : Nat) (chandef : Chandef) (radarRequired : Bool) :
    ((reserve w i addr chandef radarRequired).vifs i).reservedChanctx = some addr := by
  unfold reserve
  rw [setVif_self]

inductive Reserved (w : World) (i : Nat) (chandef : Chandef) (radarRequired : Bool) : World × Option Errno → Prop where
  | refused (after : World) (err : Errno) (vifs : after.vifs = w.vifs) (heap : after.heap.allocated = w.heap.allocated) :
    Reserved w i chandef radarRequired (after,some err)
  | found (addr : Nat) : Reserved w i chandef radarRequired (reserve w i addr chandef radarRequired,none)
  | made (new : Chanctx) (list : List Chanctx) (addr : new.addr = w.heap.next) (assigned : new.assignedVifs = [])
      (reserved : new.reservedVifs = []) (replaces : new.replaceState = .replacesOther → new.replaceCtx ≠ none) :
    Reserved w i chandef radarRequired (reserve {w with chanctxList := new :: list,heap := w.heap.alloc} i new.addr chandef radarRequired,none)

theorem alloc_free (h : Heap) : (h.alloc.free h.next).allocated = h.allocated := List.erase_cons_head ..

theorem newChanctx_made (cfg : Config) (w : World) (answers : Answers) (chandef : Chandef) (mode : Mode) :
    (∃ after err, newChanctx cfg w answers chandef mode = (after,.error err) ∧ after.vifs = w.vifs ∧ after.heap.allocated = w.heap.allocated) ∨
      newChanctx cfg w answers chandef mode =
        ({w with chanctxList := freshChanctx w chandef mode :: w.chanctxList,heap := w.heap.alloc},.ok w.heap.next) := by
  unfold newChanctx
  split
  · exact .inl ⟨_,_,rfl,rfl,rfl⟩
  · split
    · exact .inl ⟨_,_,rfl,rfl,alloc_free _⟩
    · exact .inr rfl

theorem vifReserve_reserved (cfg : Config) (w : World) (answers : Answers) (i : Nat) (chandef : Chandef) (mode : Mode) (radarRequired : Bool) :
    Reserved w i chandef radarRequired (vifReserveChanctx cfg w answers i chandef mode radarRequired) := by
  unfold vifReserveChanctx
  dsimp only
  split
  · exact .refused _ _ rfl rfl
  split
  · exact .found _
  split
  · rcases newChanctx_made cfg w answers chandef mode with ⟨after,err,same,vifs,heap⟩ | same
    · rw [same]
      exact .refused after err vifs heap
    · rw [same]
      exact .made (freshChanctx w chandef mode) _ rfl rfl rfl fun replaces => ReplaceState.noConfusion replaces
  · split
    · exact .refused _ _ rfl rfl
    · rename_i old found
      split
      · exact .refused _ _ rfl rfl
      · exact .made {freshChanctx w chandef mode with replaceCtx := some old.addr,replaceState := .replacesOther} _ rfl rfl rfl
          fun _ => Option.some_ne_none _

theorem freeUnused_vifs (w : World) (addr : Nat) : (freeUnused w addr).vifs = w.vifs := by
  unfold freeUnused
  split
  · rfl
  · split
    · rfl
    · split
      · split <;> rfl
      · rfl

theorem freeUnused_heap (w : World) (addr : Nat) : ∀ a ∈ (freeUnused w addr).heap.allocated, a ∈ w.heap.allocated := by
  intro a
  unfold freeUnused
  split
  · exact id
  · split
    · exact id
    · split
      · split
        · exact id
        · exact List.mem_of_mem_erase
      · exact List.mem_of_mem_erase

theorem unreserve_vifs (w : World) (i : Nat) :
    (vifUnreserveChanctx w i).vifs = Function.update w.vifs i {w.vifs i with reservedChanctx := none} := by
  unfold vifUnreserveChanctx
  split
  · next unreserved =>
    rw [← unreserved]
    exact (Function.update_eq_self i w.vifs).symm
  · exact freeUnused_vifs _ _

theorem unreserve_vif (w : World) (i : Nat) : ((vifUnreserveChanctx w i).vifs i).reservedChanctx = none := by
  rw [unreserve_vifs,Function.update_self]

theorem reserved_chandef (reserved : Reserved w i chandef radarRequired out) :
    (out.1.vifs i).chandef = (w.vifs i).chandef := by
  cases reserved with
  | refused after err vifs => rw [vifs]
  | found | made =>
    unfold reserve
    rw [setVif_self]
    rfl

theorem unreserve_heap (reserved : Reserved w i chandef radarRequired (after,none)) :
    ∀ a ∈ (vifUnreserveChanctx after i).heap.allocated, a ∈ w.heap.allocated := by
  intro a member
  unfold vifUnreserveChanctx at member
  generalize result : ((after,none) : World × Option Errno) = out at reserved
  cases reserved with
  | refused => cases result
  | found =>
    cases result
    rw [reserve_vif] at member
    have inside := freeUnused_heap _ _ a member
    exact inside
  | made new list addr assigned reserved replaces =>
    cases result
    rw [reserve_vif] at member
    dsimp only at member
    generalize given : World.setVif _ i _ = w' at member
    -- The new context is first, and the only interface has gone from it.
    have first : w'.ctx new.addr = some new ∧ w'.heap = w.heap.alloc := by
      rw [← given]
      unfold reserve World.setCtx World.setVif World.ctx
      dsimp only
      rw [List.map_cons,List.map_cons,if_pos rfl,if_pos rfl,List.find?_cons_of_pos (by exact beq_self_eq_true _),reserved,List.erase_cons_head,← reserved]
      exact ⟨rfl,rfl⟩
    obtain ⟨ctx,heap⟩ := first
    have unused : new.refcount = 0 := by
      unfold Chanctx.refcount
      rw [assigned,reserved]
      rfl
    have freed : ∀ v : World, v.heap = w.heap.alloc → (freeChanctx v new.addr).heap.allocated = w.heap.allocated := by
      intro v same
      unfold freeChanctx
      rw [same,addr,alloc_free]
    unfold freeUnused at member
    rw [ctx] at member
    dsimp only at member
    rw [if_neg (not_not.mpr unused)] at member
    split at member
    · rename_i state
      split at member
      · rename_i nothing
        exact absurd nothing (replaces state)
      · rename_i old replaced
        rw [freed (w'.setCtx old _) heap] at member
        exact member
    · rw [freed _ heap] at member
      exact member

end reserve

end Mac80211.Chan

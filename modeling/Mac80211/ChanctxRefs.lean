import Mac80211.ChanctxUse
import Mac80211.Handover

namespace Mac80211.Chan
open Handover
open Function (apply_update update update_apply update_eq_self)

def ReplaceState.stage : ReplaceState → Stage
  | .unreplaced => .plain
  | .willBeReplaced => .leaving
  | .replacesOther => .coming

def Chanctx.role (ctx : Chanctx) : Role Nat := ⟨ctx.replaceState.stage,ctx.replaceCtx⟩

-- The pointers of the contexts and interfaces alone; each function is one operation on them.
def World.refs (w : World) : Refs Nat Nat where
  held i := (w.vifs i).chanctxConf
  awaited i := (w.vifs i).reservedChanctx
  on := w.assignedTo
  waits := w.reservedBy
  role addr := (w.ctx addr).map Chanctx.role

structure World.Listed (w : World) : Prop where
  once : w.addrs.Nodup
  blocks : w.heap.allocated = w.addrs
  below : ∀ addr ∈ w.addrs, addr < w.heap.next

structure World.Sound (w : World) : Prop where
  listed : w.Listed
  linked : Linked w.refs

section reads
variable {w : World} {f : Chanctx → Chanctx}

theorem ctx_member (found : w.ctx addr = some ctx) : ctx ∈ w.chanctxList ∧ ctx.addr = addr :=
  ⟨List.mem_of_find?_eq_some found,eq_of_beq (List.find?_some found :)⟩

theorem ctx_addrs (w : World) (addr : Nat) : w.ctx addr = none ↔ addr ∉ w.addrs := by
  unfold World.ctx World.addrs
  rw [List.find?_eq_none,List.mem_map]
  constructor
  · rintro nowhere ⟨ctx,member,rfl⟩
    exact nowhere ctx member (beq_self_eq_true _)
  · intro nowhere ctx member here
    exact nowhere ⟨ctx,member,eq_of_beq here⟩

theorem ctx_of_mem (once : w.addrs.Nodup) (member : ctx ∈ w.chanctxList) : w.ctx ctx.addr = some ctx := by
  cases found : w.ctx ctx.addr with
  | none => exact absurd (List.mem_map_of_mem member) ((ctx_addrs w _).mp found)
  | some =>
    obtain ⟨inside,same⟩ := ctx_member found
    rw [List.inj_on_of_nodup_map once inside member same]

theorem ctx_map (list : List Chanctx) (keeps : ∀ ctx, (f ctx).addr = ctx.addr) (addr : Nat) :
    (list.map f).find? (fun ctx => ctx.addr == addr) = (list.find? fun ctx => ctx.addr == addr).map f := by
  rw [List.find?_map]
  congr 2
  funext ctx
  exact congrArg (· == addr) (keeps ctx)

theorem ctx_setCtx (keeps : ∀ ctx, (f ctx).addr = ctx.addr) (addr b : Nat) :
    (w.setCtx addr f).ctx b = if b = addr then (w.ctx b).map f else w.ctx b := by
  have same : (w.setCtx addr f).ctx b = (w.ctx b).map fun ctx => if ctx.addr = addr then f ctx else ctx := by
    apply ctx_map
    intro ctx
    split
    · exact keeps ctx
    · rfl
  rw [same]
  cases found : w.ctx b with
  | none => exact (ite_self none).symm
  | some =>
    rw [← (ctx_member found).2,Option.map_some,apply_ite some]
    rfl

theorem ctx_cons (w : World) (new : Chanctx) (heap : Heap) (b : Nat) :
    World.ctx {w with chanctxList := new :: w.chanctxList,heap := heap} b = if b = new.addr then some new else w.ctx b := by
  unfold World.ctx
  rw [List.find?_cons]
  by_cases here : b = new.addr
  · rw [if_pos here,here,beq_self_eq_true]
  · rw [if_neg here,beq_false_of_ne (Ne.symm here)]

theorem addrs_free (w : World) (addr : Nat) : (freeChanctx w addr).addrs = w.addrs.erase addr := by
  unfold freeChanctx World.addrs
  rw [List.erase_eq_eraseP',List.eraseP_map]
  rfl

theorem find_eraseP {α : Type} {p q : α → Bool} (apart : ∀ a, p a = true → q a = false) (list : List α) :
    (list.eraseP q).find? p = list.find? p := by
  induction list with
  | nil => rfl
  | cons a list ih =>
    rw [List.eraseP_cons]
    cases gone : q a with
    | true =>
      have other : ¬ p a = true := by
        intro same
        rw [apart a same] at gone
        cases gone
      rw [cond_true,List.find?_cons_of_neg other]
    | false => rw [cond_false,List.find?_cons,List.find?_cons,ih]

theorem ctx_free (once : w.addrs.Nodup) (addr b : Nat) : (freeChanctx w addr).ctx b = if b = addr then none else w.ctx b := by
  by_cases here : b = addr
  · rw [if_pos here,here,ctx_addrs,addrs_free]
    exact once.not_mem_erase
  · rw [if_neg here]
    apply find_eraseP
    intro _ same
    exact beq_false_of_ne fun eq => here ((eq_of_beq same).symm.trans eq)

end reads

section refs
variable {w : World}

theorem refs_setCtx (found : w.ctx addr = some ctx) (keeps : ∀ ctx, (f ctx).addr = ctx.addr) :
    (w.setCtx addr f).refs = {w.refs with
      on := update w.assignedTo addr (f ctx).assignedVifs,
      waits := update w.reservedBy addr (f ctx).reservedVifs,
      role := update w.refs.role addr (some (f ctx).role)} := by
  have reads : ∀ b, (w.setCtx addr f).ctx b = if b = addr then some (f ctx) else w.ctx b := by
    intro b
    rw [ctx_setCtx keeps]
    by_cases here : b = addr
    · rw [if_pos here,if_pos here,here,found,Option.map_some]
    · rw [if_neg here,if_neg here]
  unfold World.refs World.assignedTo World.reservedBy
  ext1
  · rfl
  · rfl
  all_goals
    funext b
    dsimp only
    rw [reads,update_apply]
    split <;> rfl

theorem refs_listed (w : World) (addr : Nat) : w.refs.role addr = none ↔ w.ctx addr = none := Option.map_eq_none_iff

theorem ctx_of_role (given : w.refs.role addr = some role) : ∃ ctx, w.ctx addr = some ctx ∧ ctx.role = role :=
  Option.map_eq_some_iff.mp given

section
variable (w : World) (i : Nat)

theorem refs_setVif (f : Vif → Vif) : (w.setVif i f).refs = {w.refs with
    held := update w.refs.held i (f (w.vifs i)).chanctxConf,
    awaited := update w.refs.awaited i (f (w.vifs i)).reservedChanctx} := by
  ext1
  · funext j
    change (update w.vifs i (f (w.vifs i)) j).chanctxConf = _
    rw [apply_update fun _ => Vif.chanctxConf]
    rfl
  · funext j
    change (update w.vifs i (f (w.vifs i)) j).reservedChanctx = _
    rw [apply_update fun _ => Vif.reservedChanctx]
    rfl
  all_goals rfl

theorem refs_setVif_same (f : Vif → Vif) (conf : (f (w.vifs i)).chanctxConf = (w.vifs i).chanctxConf)
    (reserved : (f (w.vifs i)).reservedChanctx = (w.vifs i).reservedChanctx) : (w.setVif i f).refs = w.refs := by
  rw [refs_setVif,conf,reserved,show (w.vifs i).chanctxConf = w.refs.held i from rfl,
    show (w.vifs i).reservedChanctx = w.refs.awaited i from rfl,update_eq_self,update_eq_self]

theorem refs_setConf (conf : Option Nat) : (w.setConf i conf).refs = {w.refs with held := update w.refs.held i conf} := by
  unfold World.setConf
  rw [refs_setVif]
  rw [show (w.vifs i).reservedChanctx = w.refs.awaited i from rfl,update_eq_self]

theorem refs_listDel : (w.listDel i).refs = {w.refs with on := fun addr => (w.refs.on addr).erase i} := by
  have reads : ∀ b, (w.listDel i).ctx b = (w.ctx b).map fun ctx => {ctx with assignedVifs := ctx.assignedVifs.erase i} :=
    ctx_map w.chanctxList fun _ => rfl
  unfold World.refs World.assignedTo World.reservedBy
  ext1
  · rfl
  · rfl
  all_goals
    funext b
    dsimp only
    rw [reads]
    cases w.ctx b <;> rfl

end

theorem assigned_of (found : w.ctx addr = some ctx) : w.assignedTo addr = ctx.assignedVifs := by
  unfold World.assignedTo
  rw [found]
  rfl

theorem reserved_of (found : w.ctx addr = some ctx) : w.reservedBy addr = ctx.reservedVifs := by
  unfold World.reservedBy
  rw [found]
  rfl

theorem role_of (found : w.ctx addr = some ctx) : w.refs.role addr = some ctx.role := by
  unfold World.refs
  dsimp only
  rw [found]
  rfl

theorem role_state (found : w.ctx addr = some ctx) (same : ctx.replaceState = state) :
    w.refs.role addr = some ⟨state.stage,ctx.replaceCtx⟩ := by
  rw [role_of found,← same]
  rfl

theorem role_there (given : w.refs.role addr = some role) : w.refs.role addr ≠ none := by
  rw [given]
  exact Option.some_ne_none role

section
variable (w : World) (there : w.refs.role addr ≠ none) (g : List Nat → List Nat)
include there

theorem refs_setAssigned :
    (w.setCtx addr fun ctx => {ctx with assignedVifs := g ctx.assignedVifs}).refs =
      {w.refs with on := update w.refs.on addr (g (w.refs.on addr))} := by
  obtain ⟨role,given⟩ := Option.ne_none_iff_exists'.mp there
  obtain ⟨_,found,rfl⟩ := ctx_of_role given
  rw [refs_setCtx found]
  · ext1
    · rfl
    · rfl
    · exact congrArg (fun list => update w.refs.on addr (g list)) (assigned_of found).symm
    · rw [← reserved_of found]
      exact update_eq_self addr w.reservedBy
    · exact (congrArg (update w.refs.role addr) given.symm).trans (update_eq_self addr w.refs.role)
  · exact fun _ => rfl

theorem refs_setReserved :
    (w.setCtx addr fun ctx => {ctx with reservedVifs := g ctx.reservedVifs}).refs =
      {w.refs with waits := update w.refs.waits addr (g (w.refs.waits addr))} := by
  obtain ⟨role,given⟩ := Option.ne_none_iff_exists'.mp there
  obtain ⟨_,found,rfl⟩ := ctx_of_role given
  rw [refs_setCtx found]
  · ext1
    · rfl
    · rfl
    · rw [← assigned_of found]
      exact update_eq_self addr w.assignedTo
    · exact congrArg (fun list => update w.refs.waits addr (g list)) (reserved_of found).symm
    · exact (congrArg (update w.refs.role addr) given.symm).trans (update_eq_self addr w.refs.role)
  · exact fun _ => rfl

end

theorem refs_listAdd (w : World) (i : Nat) (there : w.refs.role addr ≠ none) :
    (w.listAdd i addr).refs = {w.refs with on := update w.refs.on addr (i :: w.refs.on addr)} :=
  refs_setAssigned w there fun list => i :: list

theorem refs_setRole (w : World) (there : w.refs.role addr ≠ none) (replaceCtx : Option Nat) (replaceState : ReplaceState) :
    (w.setCtx addr fun ctx => {ctx with replaceCtx := replaceCtx,replaceState := replaceState}).refs =
      w.refs.setRole addr (some ⟨replaceState.stage,replaceCtx⟩) := by
  obtain ⟨_,given⟩ := Option.ne_none_iff_exists'.mp there
  obtain ⟨_,found,rfl⟩ := ctx_of_role given
  rw [refs_setCtx found]
  · ext1
    · rfl
    · rfl
    · rw [← assigned_of found]
      exact update_eq_self addr w.assignedTo
    · rw [← reserved_of found]
      exact update_eq_self addr w.reservedBy
    · rfl
  · exact fun _ => rfl

theorem refs_change (w : World) (addr : Nat) (chandef : Chandef) : (changeChanctx w addr chandef).refs = w.refs := by
  have reads (b : Nat) : (changeChanctx w addr chandef).ctx b =
      if b = addr then (w.ctx b).map fun ctx => {ctx with chandef := chandef} else w.ctx b := by
    unfold changeChanctx
    rw [ctx_setCtx]
    exact fun _ => rfl
  unfold World.refs World.assignedTo World.reservedBy
  ext1
  · rfl
  · rfl
  all_goals
    funext b
    dsimp only
    rw [reads]
    split
    · cases w.ctx b <;> rfl
    · rfl

theorem refs_updateChandef (w : World) (i : Nat) (chandef : Chandef) : (vifUpdateChandef w i chandef).refs = w.refs :=
  refs_setVif_same w i (fun vif => {vif with chandef := chandef}) rfl rfl

theorem refs_copyToVlans (w : World) (i : Nat) (clear : Bool) : (w.copyToVlans i clear).refs = w.refs := refs_setVif_same w i _ rfl rfl

theorem refs_setReady (w : World) (i : Nat) : (w.setReady i).refs = w.refs :=
  refs_setVif_same w i (fun vif => {vif with reservedReady := true}) rfl rfl

theorem refs_dropReserved (indexed : Indexed w.refs.awaited w.refs.waits) (there : w.refs.role addr ≠ none)
    (reserved : (w.vifs i).reservedChanctx = some addr) : (w.dropReserved i addr).refs = w.refs.drop i := by
  have lists := indexed.erase_at reserved
  unfold World.dropReserved Refs.drop
  rw [refs_setVif,refs_setReserved w there fun list => list.erase i,lists]
  ext1
  · exact update_eq_self i w.refs.held
  all_goals rfl

theorem refs_reserve (w : World) (i : Nat) (there : w.refs.role addr ≠ none) (chandef : Chandef) (radarRequired : Bool) :
    (reserve w i addr chandef radarRequired).refs = w.refs.wait i addr := by
  unfold reserve Refs.wait
  rw [refs_setVif,refs_setReserved w there fun list => i :: list]
  ext1
  · exact update_eq_self i w.refs.held
  all_goals rfl

theorem refs_free (listed : w.Listed) (unheld : w.refs.on addr = []) (unwaited : w.refs.waits addr = []) :
    (freeChanctx w addr).refs = w.refs.setRole addr none := by
  have reads := ctx_free listed.once addr
  ext1
  · rfl
  · rfl
  · funext b
    change ((World.ctx _ b).map _).getD [] = w.refs.on b
    rw [reads]
    split
    · rename_i here
      rw [here,unheld]
      rfl
    · rfl
  · funext b
    change ((World.ctx _ b).map _).getD [] = w.refs.waits b
    rw [reads]
    split
    · rename_i here
      rw [here,unwaited]
      rfl
    · rfl
  · funext b
    change (World.ctx _ b).map _ = _
    rw [reads,setRole_role]
    split <;> rfl

def World.withCtx (w : World) (new : Chanctx) : World := {w with chanctxList := new :: w.chanctxList,heap := w.heap.alloc}

theorem refs_withCtx (fresh : w.ctx new.addr = none) (unassigned : new.assignedVifs = [])
    (unreserved : new.reservedVifs = []) : (w.withCtx new).refs = w.refs.setRole new.addr (some new.role) := by
  have reads := ctx_cons w new w.heap.alloc
  ext1
  · rfl
  · rfl
  · funext b
    change ((World.ctx _ b).map _).getD [] = w.refs.on b
    unfold World.withCtx
    rw [reads]
    split
    · rename_i here
      unfold World.refs World.assignedTo
      dsimp only
      rw [here,fresh]
      exact unassigned
    · rfl
  · funext b
    change ((World.ctx _ b).map _).getD [] = w.refs.waits b
    unfold World.withCtx
    rw [reads]
    split
    · rename_i here
      unfold World.refs World.reservedBy
      dsimp only
      rw [here,fresh]
      exact unreserved
    · rfl
  · funext b
    change (World.ctx _ b).map _ = _
    unfold World.withCtx
    rw [reads,setRole_role]
    split <;> rfl

end refs

section listed
variable {w : World}

theorem World.Listed.congr {w' : World} (listed : w.Listed) (addrs : w'.addrs = w.addrs) (heap : w'.heap = w.heap) : w'.Listed where
  once := addrs ▸ listed.once
  blocks := by rw [addrs,heap,listed.blocks]
  below := by
    rw [addrs,heap]
    exact listed.below

theorem addrs_map (w : World) (keeps : ∀ ctx, (f ctx).addr = ctx.addr) : (w.chanctxList.map f).map Chanctx.addr = w.addrs := by
  rw [List.map_map]
  exact List.map_congr_left fun ctx _ => keeps ctx

theorem addrs_setCtx (w : World) (addr : Nat) (keeps : ∀ ctx, (f ctx).addr = ctx.addr) : (w.setCtx addr f).addrs = w.addrs := by
  apply addrs_map
  intro ctx
  split
  · exact keeps ctx
  · rfl

section
variable (listed : w.Listed)
include listed

theorem World.Listed.setCtx (addr : Nat) (keeps : ∀ ctx, (f ctx).addr = ctx.addr) : (w.setCtx addr f).Listed :=
  listed.congr (addrs_setCtx w addr keeps) rfl

theorem World.Listed.listDel (i : Nat) : (w.listDel i).Listed := listed.congr (addrs_map w fun _ => rfl) rfl

theorem World.Listed.free (addr : Nat) : (freeChanctx w addr).Listed where
  once := by
    rw [addrs_free]
    exact listed.once.erase addr
  blocks := by
    rw [addrs_free,← listed.blocks]
    rfl
  below := by
    rw [addrs_free]
    intro b member
    exact listed.below b (List.mem_of_mem_erase member)

theorem World.Listed.fresh : w.ctx w.heap.next = none :=
  (ctx_addrs w w.heap.next).mpr fun member => Nat.lt_irrefl _ (listed.below _ member)

theorem World.Listed.withCtx (next : new.addr = w.heap.next) : (w.withCtx new).Listed where
  once := List.nodup_cons.mpr ⟨next ▸ (ctx_addrs w w.heap.next).mp listed.fresh,listed.once⟩
  blocks := by
    change w.heap.next :: w.heap.allocated = new.addr :: w.addrs
    rw [listed.blocks,next]
  below := by
    intro addr member
    rcases List.mem_cons.mp member with rfl | old
    · exact next ▸ Nat.lt_succ_self w.heap.next
    · exact Nat.lt_succ_of_lt (listed.below addr old)

end

end listed

end Mac80211.Chan

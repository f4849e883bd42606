import Mac80211.ChanctxRefs

namespace Mac80211.Chan
open Handover

-- A function of chan.c is a sequence of moves of the abstract model.
structure Reaches (calm : Prop) (w w' : World) : Prop where
  listed : w'.Listed
  moves : Relation.ReflTransGen (Move calm) w.refs w'.refs

theorem stage_inj {state' : ReplaceState} (same : state.stage = state'.stage) : state = state' := by
  revert same
  cases state <;> cases state' <;> decide

section reaches
variable {w : World}

theorem World.Sound.refl (sound : w.Sound) : Reaches calm w w := ⟨sound.listed,.refl⟩

theorem Reaches.trans (first : Reaches calm w w') (second : Reaches calm w' w'') : Reaches calm w w'' :=
  ⟨second.listed,first.moves.trans second.moves⟩

theorem Reaches.sound (reaches : Reaches calm w w') (sound : w.Sound) : w'.Sound :=
  ⟨reaches.listed,sound.linked.moves reaches.moves⟩

theorem Reaches.step (listed : w'.Listed) (refs : w'.refs = r) (move : Move calm w.refs r) : Reaches calm w w' :=
  ⟨listed,.single (refs ▸ move)⟩

theorem Reaches.same (listed : w'.Listed) (refs : w'.refs = w.refs) : Reaches calm w w' := ⟨listed,by rw [refs]⟩

inductive Freed (r : Refs Nat Nat) (addr : Nat) : Refs Nat Nat → Prop where
  | kept : ¬ (r.on addr = [] ∧ r.waits addr = []) → Freed r addr r
  | parted (old : Nat) : r.on addr = [] → r.waits addr = [] → r.role addr = some ⟨.coming,some old⟩ → Freed r addr (r.part old addr)
  | removed : r.on addr = [] → r.waits addr = [] → r.role addr = some ⟨.plain,none⟩ → Freed r addr (r.setRole addr none)

theorem Freed.moves (freed : Freed r addr r') : Relation.ReflTransGen (Move calm) r r' := by
  cases freed with
  | kept => exact .refl
  | parted old unheld unwaited coming => exact .single (.part old addr .coming coming unheld unwaited)
  | removed unheld unwaited plain => exact .single (.remove addr plain unheld unwaited)

theorem dropReserved_listed (listed : w.Listed) (i addr : Nat) : (w.dropReserved i addr).Listed := by
  have lists : (w.setCtx addr fun ctx => {ctx with reservedVifs := ctx.reservedVifs.erase i}).Listed := by
    apply listed.setCtx
    exact fun _ => rfl
  exact lists.congr rfl rfl

theorem refcount_zero (found : w.ctx addr = some ctx) : ctx.refcount = 0 ↔ w.refs.on addr = [] ∧ w.refs.waits addr = [] := by
  change _ ↔ w.assignedTo addr = [] ∧ w.reservedBy addr = []
  rw [assigned_of found,reserved_of found,← List.length_eq_zero_iff,← List.length_eq_zero_iff]
  exact Nat.add_eq_zero_iff

theorem part_refs (sound : w.Sound) (pair : w.refs.role gone = some ⟨stage,some kept⟩)
    (unheld : w.refs.on gone = []) (unwaited : w.refs.waits gone = []) :
    (freeChanctx (w.setCtx kept fun ctx => {ctx with replaceCtx := none,replaceState := .unreplaced}) gone).Listed ∧
      (freeChanctx (w.setCtx kept fun ctx => {ctx with replaceCtx := none,replaceState := .unreplaced}) gone).refs = w.refs.part kept gone := by
  have there : w.refs.role kept ≠ none := by
    intro nothing
    rcases sound.linked.paired.other pair with ⟨-,back⟩ | ⟨-,back⟩
    · rw [back] at nothing
      cases nothing
    · rw [back] at nothing
      cases nothing
  have turned := refs_setRole w there none .unreplaced
  have listed : (w.setCtx kept fun ctx => {ctx with replaceCtx := none,replaceState := .unreplaced}).Listed := by
    apply sound.listed.setCtx
    exact fun _ => rfl
  refine ⟨listed.free gone,?_⟩
  rw [refs_free listed,turned]
  · rfl
  · rw [turned]
    exact unheld
  · rw [turned]
    exact unwaited

theorem freeUnused_refs (sound : w.Sound) (given : w.refs.role addr = some role) (staying : role.stage ≠ .leaving) :
    (freeUnused w addr).Listed ∧ Freed w.refs addr (freeUnused w addr).refs := by
  obtain ⟨ctx,found,rfl⟩ := ctx_of_role given
  have zero := refcount_zero found
  unfold freeUnused
  rw [found]
  dsimp only
  split
  · rename_i used
    exact ⟨sound.listed,.kept fun nobody => used (zero.mpr nobody)⟩
  rename_i unused
  obtain ⟨unheld,unwaited⟩ := zero.mp (not_not.mp unused)
  split
  · rename_i state
    have coming : w.refs.role addr = some ⟨.coming,ctx.replaceCtx⟩ := role_state found state
    obtain ⟨old,link,-⟩ := sound.linked.paired.coming addr ctx.replaceCtx coming
    rw [link] at coming ⊢
    obtain ⟨listed,refs⟩ := part_refs sound coming unheld unwaited
    refine ⟨listed,?_⟩
    rw [refs]
    exact .parted old unheld unwaited coming
  · rename_i state
    refine ⟨sound.listed.free addr,?_⟩
    rw [refs_free sound.listed unheld unwaited]
    apply Freed.removed unheld unwaited
    exact sound.linked.paired.unlinked given staying fun coming => state (stage_inj coming)

theorem awaited_stays (linked : Linked w.refs) (reserved : (w.vifs i).reservedChanctx = some addr) :
    ∃ role, w.refs.role addr = some role ∧ role.stage ≠ .leaving := by
  obtain ⟨role,given⟩ := Option.ne_none_iff_exists'.mp (linked.liveAwaited i addr reserved)
  refine ⟨role,given,?_⟩
  intro leaving
  have nobody := linked.closed addr role.link (by rw [given,← leaving])
  have member := (linked.awaited.listed i addr).mpr reserved
  rw [nobody] at member
  cases member

theorem dropped_sound (sound : w.Sound) (reserved : (w.vifs i).reservedChanctx = some addr) :
    (w.dropReserved i addr).Sound ∧ (w.dropReserved i addr).refs = w.refs.drop i := by
  have refs := refs_dropReserved sound.linked.awaited (sound.linked.liveAwaited i addr reserved) reserved
  refine ⟨⟨dropReserved_listed sound.listed i addr,?_⟩,refs⟩
  rw [refs]
  exact sound.linked.drop i

theorem unreserve_refs (sound : w.Sound) (reserved : (w.vifs i).reservedChanctx = some addr) :
    (vifUnreserveChanctx w i).Listed ∧ Freed (w.refs.drop i) addr (vifUnreserveChanctx w i).refs := by
  obtain ⟨dropped,refs⟩ := dropped_sound sound reserved
  obtain ⟨role,given,staying⟩ := awaited_stays sound.linked reserved
  have same : vifUnreserveChanctx w i = freeUnused (w.dropReserved i addr) addr := by
    unfold vifUnreserveChanctx
    rw [reserved]
    rfl
  rw [same,← refs]
  exact freeUnused_refs dropped ((congrFun (congrArg Refs.role refs) addr).trans given) staying

theorem unreserve_held (sound : w.Sound) (i : Nat) : (vifUnreserveChanctx w i).refs.held = w.refs.held := by
  cases reserved : (w.vifs i).reservedChanctx with
  | none =>
    unfold vifUnreserveChanctx
    rw [reserved]
  | some =>
    have freed := (unreserve_refs sound reserved).2
    generalize (vifUnreserveChanctx w i).refs = r at freed
    cases freed <;> rfl

theorem unreserve_leaving (sound : w.Sound)
    (leaving : (vifUnreserveChanctx w i).refs.role d = some ⟨.leaving,link⟩) : w.refs.role d = some ⟨.leaving,link⟩ := by
  cases reserved : (w.vifs i).reservedChanctx with
  | none =>
    unfold vifUnreserveChanctx at leaving
    rw [reserved] at leaving
    exact leaving
  | some =>
    have freed := (unreserve_refs sound reserved).2
    generalize (vifUnreserveChanctx w i).refs = r at freed leaving
    cases freed with
    | kept => exact leaving
    | parted =>
      unfold Refs.part at leaving
      rw [setRole_role,setRole_role] at leaving
      split at leaving
      · cases leaving
      · split at leaving
        · cases leaving
        · exact leaving
    | removed =>
      rw [setRole_role] at leaving
      split at leaving
      · cases leaving
      · exact leaving

theorem unreserve_reaches (sound : w.Sound) (i : Nat) : Reaches calm w (vifUnreserveChanctx w i) := by
  cases reserved : (w.vifs i).reservedChanctx with
  | none =>
    unfold vifUnreserveChanctx
    rw [reserved]
    exact sound.refl
  | some =>
    obtain ⟨listed,freed⟩ := unreserve_refs sound reserved
    exact ⟨listed,(Relation.ReflTransGen.single (.drop i)).trans freed.moves⟩

end reaches

section reserve

theorem newChanctx_fresh (calm : Prop) (sound : w.Sound) (cfg : Config) (answers : Answers) (chandef : Chandef) (mode : Mode) :
    Reaches calm w (newChanctx cfg w answers chandef mode).1 ∧ ∀ addr, (newChanctx cfg w answers chandef mode).2 = .ok addr →
      (newChanctx cfg w answers chandef mode).1.refs = w.refs.setRole addr (some ⟨.plain,none⟩) ∧ w.refs.role addr = none := by
  have fresh := sound.listed.fresh
  have nobody := (refs_listed w w.heap.next).mpr fresh
  unfold newChanctx
  split
  · exact ⟨sound.refl,fun addr ok => by cases ok⟩
  split
  · refine ⟨Reaches.same ⟨sound.listed.once,?_,?_⟩ rfl,fun addr ok => by cases ok⟩
    · exact (alloc_free w.heap).trans sound.listed.blocks
    · exact fun addr member => Nat.lt_succ_of_lt (sound.listed.below addr member)
  · have refs : (w.withCtx (freshChanctx w chandef mode)).refs = w.refs.setRole w.heap.next (some ⟨.plain,none⟩) :=
      refs_withCtx fresh rfl rfl
    refine ⟨Reaches.step (sound.listed.withCtx rfl) refs (.add _ nobody),?_⟩
    intro _ ok
    cases ok
    exact ⟨refs,nobody⟩

theorem reserve_reaches (sound : w.Sound) (given : w.refs.role addr = some role) (staying : role.stage ≠ .leaving)
    (free : (w.vifs i).reservedChanctx = none) : Reaches calm w (reserve w i addr chandef radarRequired) := by
  have refs := refs_reserve w i (role_there given) chandef radarRequired
  refine Reaches.step ?_ refs (.wait i addr role free given staying)
  have lists : (w.setCtx addr fun ctx => {ctx with reservedVifs := i :: ctx.reservedVifs}).Listed := by
    apply sound.listed.setCtx
    exact fun _ => rfl
  exact lists.congr rfl rfl

theorem replaceable_spec (found : replaceable w curr = some old) :
    old.replaceState ≠ .willBeReplaced ∧ old.reservedVifs = [] ∧ (curr = some old ∨ old ∈ w.chanctxList ∧ old.replaceState = .unreplaced) := by
  obtain ⟨chosen,untaken⟩ := Option.filter_eq_some_iff.mp found
  have fit : old.replaceState ≠ .willBeReplaced ∧ old.reservedVifs = [] := by
    unfold Chanctx.taken at untaken
    simpa using untaken
  refine ⟨fit.1,fit.2,?_⟩
  split at chosen
  · rw [Option.orElse_eq_or,Option.or_eq_some_iff] at chosen
    rcases chosen with other | ⟨_,own⟩
    · have state := List.find?_some other
      exact .inr ⟨List.mem_of_find?_eq_some other,(by simpa using state : _ ∧ _).1⟩
    · exact .inl own
  · exact .inl chosen

theorem replace_reaches (sound : w.Sound) (found : w.ctx old.addr = some old) (state : old.replaceState = .unreplaced)
    (unreserved : old.reservedVifs = []) (free : (w.vifs i).reservedChanctx = none) (next : new.addr = w.heap.next)
    (role : new.role = ⟨.coming,some old.addr⟩) (lists : new.assignedVifs = [] ∧ new.reservedVifs = []) :
    Reaches calm w (reserve
      ((w.setCtx old.addr fun ctx => {ctx with replaceCtx := some new.addr,replaceState := .willBeReplaced}).withCtx new)
      i new.addr chandef radarRequired) := by
  have given : w.refs.role old.addr = some ⟨.plain,none⟩ := by
    have stage : old.role.stage = .plain := congrArg ReplaceState.stage state
    apply sound.linked.paired.unlinked (role_of found)
    · rw [stage]
      decide
    · rw [stage]
      decide
  have turned := refs_setRole w (role_there given) (some new.addr) .willBeReplaced
  have listed : (w.setCtx old.addr fun ctx => {ctx with replaceCtx := some new.addr,replaceState := .willBeReplaced}).Listed := by
    apply sound.listed.setCtx
    exact fun _ => rfl
  revert turned listed
  generalize replaced : (w.setCtx old.addr fun ctx => {ctx with replaceCtx := some new.addr,replaceState := .willBeReplaced}) = w'
  intro turned listed
  have heap : w'.heap = w.heap := by
    rw [← replaced]
    rfl
  have refs : (w'.withCtx new).refs = w.refs.replace old.addr new.addr := by
    have fresh : w'.ctx new.addr = none := by
      rw [next,← heap]
      exact listed.fresh
    rw [refs_withCtx fresh lists.1 lists.2,role,turned]
    rfl
  have reaches : Reaches calm w (w'.withCtx new) := by
    refine Reaches.step (listed.withCtx (next.trans (congrArg Heap.next heap.symm))) refs (.replace old.addr new.addr given ?_ ?_)
    · exact (reserved_of found).trans unreserved
    · rw [next]
      exact (refs_listed w w.heap.next).mpr sound.listed.fresh
  have coming : (w'.withCtx new).refs.role new.addr = some ⟨.coming,some old.addr⟩ := by
    rw [refs]
    unfold Refs.replace
    rw [setRole_role,if_pos rfl]
  refine reaches.trans (reserve_reaches (reaches.sound sound) coming ?_ ?_)
  · intro leaving
    cases leaving
  · exact (congrFun (congrArg Refs.awaited refs) i).trans free

theorem vifReserve_reaches (sound : w.Sound) (settled : Settled w.refs) (free : (w.vifs i).reservedChanctx = none)
    (cfg : Config) (answers : Answers) (chandef : Chandef) (mode : Mode) (radarRequired : Bool) :
    Reaches calm w (vifReserveChanctx cfg w answers i chandef mode radarRequired).1 := by
  unfold vifReserveChanctx
  dsimp only
  split
  · exact sound.refl
  split
  · rename_i ctx found
    unfold findReservationChanctx at found
    split at found
    · cases found
    · have checked := List.find?_some found
      have state : ctx.replaceState ≠ .willBeReplaced := by
        intro leaving
        rw [leaving] at checked
        exact absurd checked Bool.false_ne_true
      have given := role_of (ctx_of_mem sound.listed.once (List.mem_of_find?_eq_some found))
      exact reserve_reaches sound given (fun leaving => state (stage_inj leaving)) free
  split
  · obtain ⟨reaches,refs⟩ := newChanctx_fresh calm sound cfg answers chandef mode
    split
    · rename_i made
      rw [made] at reaches
      exact reaches
    · rename_i made addr new
      rw [new] at reaches refs
      obtain ⟨same,-⟩ := refs addr rfl
      have given : made.refs.role addr = some ⟨.plain,none⟩ := by
        rw [same,setRole_role,if_pos rfl]
      refine reaches.trans (reserve_reaches (reaches.sound sound) given (by decide) ?_)
      exact (congrFun (congrArg Refs.awaited same) i).trans free
  split
  · exact sound.refl
  rename_i old found
  split
  · exact sound.refl
  obtain ⟨leaving,unreserved,from'⟩ := replaceable_spec found
  have here : w.ctx old.addr = some old ∧ old.replaceState = .unreplaced := by
    rcases from' with own | ⟨member,state⟩
    · obtain ⟨addr,conf,at'⟩ := Option.bind_eq_some_iff.mp own
      have same := (ctx_member at').2
      have holder : i ∈ w.refs.on addr := (sound.linked.held.listed i addr).mpr conf
      refine ⟨same ▸ at',?_⟩
      cases which : old.replaceState with
      | unreplaced => rfl
      | willBeReplaced => exact absurd which leaving
      | replacesOther =>
        have coming : w.refs.role addr = some ⟨.coming,old.replaceCtx⟩ := role_state at' which
        rw [settled addr _ coming] at holder
        cases holder
    · exact ⟨ctx_of_mem sound.listed.once member,state⟩
  exact replace_reaches sound here.1 here.2 unreserved free rfl rfl ⟨rfl,rfl⟩

end reserve

section assign
variable {w : World}

theorem recalc_refs (cfg : Config) (env : Env) (w : World) (addr : Nat) :
    (recalcChanctxChantype cfg env w addr).refs = w.refs ∧ (w.Listed → (recalcChanctxChantype cfg env w addr).Listed) := by
  unfold recalcChanctxChantype
  split
  · exact ⟨rfl,id⟩
  · split
    · exact ⟨rfl,id⟩
    · refine ⟨refs_change w addr _,?_⟩
      intro listed
      apply listed.setCtx
      exact fun _ => rfl

theorem refs_off (linked : Linked w.refs) (i : Nat) :
    (if (w.vifs i).chanctxConf.isSome then w.listDel i else w).refs = {w.refs with on := fun b => (w.refs.on b).erase i} := by
  split
  · exact refs_listDel w i
  rename_i idle
  have free : w.refs.held i = none := Option.not_isSome_iff_eq_none.mp idle
  ext1
  · rfl
  · rfl
  · funext b
    refine (List.erase_of_not_mem ?_).symm
    intro member
    rw [(linked.held.listed i b).mp member] at free
    cases free
  · rfl
  · rfl

theorem recalcLeft_refs (cfg : Config) (env : Env) (w : World) (currCtx : Option Nat) :
    (recalcLeft cfg env w currCtx).refs = w.refs ∧ (w.Listed → (recalcLeft cfg env w currCtx).Listed) := by
  unfold recalcLeft
  split
  · exact ⟨rfl,id⟩
  · split
    · exact ⟨rfl,id⟩
    · exact recalc_refs cfg env w _

theorem unassign_listed (listed : w.Listed) (i : Nat) : (if (w.vifs i).chanctxConf.isSome then w.listDel i else w).Listed := by
  split
  · exact listed.listDel i
  · exact listed

theorem assign_none (sound : w.Sound) (cfg : Config) (env : Env) (i : Nat) :
    (assignVifChanctx cfg env w i none).1.Listed ∧ (assignVifChanctx cfg env w i none).1.refs = w.refs.leave i := by
  obtain ⟨same,kept⟩ := recalcLeft_refs cfg env ((if (w.vifs i).chanctxConf.isSome then w.listDel i else w).setConf i none) (w.vifs i).chanctxConf
  refine ⟨kept ((unassign_listed sound.listed i).congr rfl rfl),same.trans ?_⟩
  rw [refs_setConf,refs_off sound.linked]
  rfl

theorem assign_some (sound : w.Sound) (cfg : Config) (env : Env) (i : Nat) (there : w.refs.role addr ≠ none) :
    (assignVifChanctx cfg env w i (some addr)).1.Listed ∧
      ((assignVifChanctx cfg env w i (some addr)).2 = none → (assignVifChanctx cfg env w i (some addr)).1.refs = (w.refs.leave i).join i addr) ∧
      ((assignVifChanctx cfg env w i (some addr)).2 ≠ none → (assignVifChanctx cfg env w i (some addr)).1.refs = w.refs.leave i) := by
  have listed := unassign_listed sound.listed i
  have off := refs_off sound.linked i
  unfold assignVifChanctx
  dsimp only
  revert listed off
  generalize (if (w.vifs i).chanctxConf.isSome then w.listDel i else w) = idle
  intro listed off
  split
  · obtain ⟨same,kept⟩ := recalcLeft_refs cfg env (idle.setConf i none) (w.vifs i).chanctxConf
    refine ⟨kept (listed.congr rfl rfl),fun ok => (by cases ok),fun _ => same.trans ?_⟩
    rw [refs_setConf,off]
    rfl
  obtain ⟨same,kept⟩ := recalcLeft_refs cfg env ((idle.listAdd i addr).setConf i (some addr)) (w.vifs i).chanctxConf
  refine ⟨kept ?_,fun _ => same.trans ?_,fun failed => absurd rfl failed⟩
  · have added : (idle.listAdd i addr).Listed := by
      apply listed.setCtx
      exact fun _ => rfl
    exact added.congr rfl rfl
  · have there' : idle.refs.role addr ≠ none := by
      rw [off]
      exact there
    rw [refs_setConf,refs_listAdd idle i there',off]
    ext1
    · exact (Function.update_idem _ _ _).symm
    all_goals rfl

section
variable (sound : w.Sound) (there : w.refs.role addr ≠ none) (idle : w.refs.on addr = [] → w.refs.waits addr = [] → w.refs.role addr = some ⟨.plain,none⟩)
include sound there idle

theorem freeIdle_refs : (freeIdle w addr).Listed ∧ Freed w.refs addr (freeIdle w addr).refs := by
  obtain ⟨_,given⟩ := Option.ne_none_iff_exists'.mp there
  obtain ⟨_,found,rfl⟩ := ctx_of_role given
  have zero := refcount_zero found
  unfold freeIdle
  rw [found,Option.all_some]
  split
  · rename_i unused
    obtain ⟨unheld,unwaited⟩ := zero.mp (eq_of_beq unused)
    refine ⟨sound.listed.free addr,?_⟩
    rw [refs_free sound.listed unheld unwaited]
    exact .removed unheld unwaited (idle unheld unwaited)
  · rename_i used
    exact ⟨sound.listed,.kept fun nobody => used (beq_of_eq (zero.mpr nobody))⟩

theorem freeIdle_reaches : Reaches calm w (freeIdle w addr) :=
  ⟨(freeIdle_refs sound there idle).1,(freeIdle_refs sound there idle).2.moves⟩

end

theorem role_of_state : w.state addr = some state ↔ ∃ link, w.refs.role addr = some ⟨state.stage,link⟩ := by
  unfold World.state World.refs
  dsimp only
  cases w.ctx addr with
  | none =>
    constructor
    · intro found
      cases found
    · rintro ⟨_,found⟩
      cases found
  | some ctx =>
    rw [Option.map_some,Option.map_some,Option.some.injEq]
    constructor
    · rintro rfl
      exact ⟨ctx.replaceCtx,rfl⟩
    · rintro ⟨_,same⟩
      exact stage_inj (congrArg Role.stage (Option.some.inj same))

end assign

section use
variable {cfg : Config} {env : Env} {w : World}

theorem usable_plain (sound : w.Sound) (reserved : (w.vifs i).reservedChanctx = some addr) (fit : usable cfg w i addr = true) :
    w.refs.role addr = some ⟨.plain,none⟩ := by
  obtain ⟨_,given,staying⟩ := awaited_stays sound.linked reserved
  obtain ⟨_,found,rfl⟩ := ctx_of_role given
  apply sound.linked.paired.unlinked given staying
  intro coming
  unfold usable at fit
  rw [found,Bool.and_eq_true,bne_iff_ne] at fit
  exact fit.1 (stage_inj coming)

theorem assignOrFree_reaches (sound : w.Sound) (cfg : Config) (env : Env) (i : Nat) (plain : w.refs.role addr = some ⟨.plain,none⟩) :
    Reaches calm w (if (assignVifChanctx cfg env w i (some addr)).2.isSome then freeIdle (assignVifChanctx cfg env w i (some addr)).1 addr
      else (assignVifChanctx cfg env w i (some addr)).1) := by
  obtain ⟨listed,joined,left⟩ := assign_some sound cfg env i (role_there plain)
  revert listed joined left
  generalize assignVifChanctx cfg env w i (some addr) = out
  intro listed joined left
  split
  · rename_i failed
    have refs := left (Option.ne_none_iff_isSome.mpr failed)
    have reaches : Reaches calm w out.1 := Reaches.step listed refs (.leave i)
    have plain' : out.1.refs.role addr = some ⟨.plain,none⟩ := by
      rw [refs]
      exact plain
    exact reaches.trans (freeIdle_reaches (reaches.sound sound) (role_there plain') fun _ _ => plain')
  · rename_i ok
    refine ⟨listed,?_⟩
    rw [joined (Option.not_isSome_iff_eq_none.mp ok)]
    exact rejoin w.refs i plain

theorem moved_refs (w : World) (i : Nat) (there : w.refs.role addr ≠ none) :
    (((w.listDel i).listAdd i addr).setConf i (some addr)).refs = (w.refs.leave i).join i addr := by
  have there' : (w.listDel i).refs.role addr ≠ none := by
    rw [refs_listDel]
    exact there
  rw [refs_setConf,refs_listAdd _ i there',refs_listDel]
  ext1
  · exact (Function.update_idem _ _ _).symm
  all_goals rfl

theorem moved_listed (listed : w.Listed) (i addr : Nat) : ((w.listDel i).listAdd i addr).Listed := by
  apply (listed.listDel i).setCtx
  exact fun _ => rfl

theorem dropFit_reaches (calm : Prop) (sound : w.Sound) (reserved : (w.vifs i).reservedChanctx = some addr) (fit : usable cfg w i addr = true) :
    Reaches calm w (w.dropReserved i addr) ∧ (w.dropReserved i addr).refs = w.refs.drop i ∧
      (w.dropReserved i addr).refs.role addr = some ⟨.plain,none⟩ := by
  obtain ⟨dropped,refs⟩ := dropped_sound sound reserved
  refine ⟨Reaches.step dropped.listed refs (.drop i),refs,?_⟩
  rw [refs]
  exact usable_plain sound reserved fit

theorem useAssign_reaches (sound : w.Sound) (cfg : Config) (env : Env) (i : Nat) : Reaches calm w (vifUseReservedAssign cfg env w i).1 := by
  unfold vifUseReservedAssign
  split
  · exact sound.refl
  · split
    · rename_i newCtx reserved free
      split
      · exact sound.refl
      · rename_i fit
        obtain ⟨first,-,plain⟩ := dropFit_reaches calm sound reserved (by simpa using fit)
        exact first.trans (assignOrFree_reaches (first.sound sound) cfg env i plain)
    · exact sound.refl

variable (cfg env) in
-- If the context to be freed is to be replaced, the interface is not the last one on it.
def ReassignSafe (w : World) (i : Nat) : Prop := ∀ oldCtx newCtx, (w.vifs i).chanctxConf = some oldCtx →
  (w.vifs i).reservedChanctx = some newCtx → w.state oldCtx = some .willBeReplaced → usable cfg w i newCtx = true →
  env.reassign i = none → ∃ j, j ≠ i ∧ (w.vifs j).chanctxConf = some oldCtx

theorem freeLeft_reaches (sound : w.Sound) (settled : Settled w.refs) (conf : (w.vifs i).chanctxConf = some oldCtx)
    (others : w.state oldCtx = some .willBeReplaced → ∃ j, j ≠ i ∧ (w.vifs j).chanctxConf = some oldCtx)
    (moves : moved.Sound) (refs : moved.refs = ((w.refs.drop i).leave i).join i newCtx) : Reaches calm moved (freeIdle moved oldCtx) := by
  have member : i ∈ w.refs.on oldCtx := (sound.linked.held.listed i oldCtx).mpr conf
  obtain ⟨role,given⟩ := Option.ne_none_iff_exists'.mp (sound.linked.liveHeld i oldCtx conf)
  have kept : moved.refs.role = w.refs.role := by
    rw [refs]
    rfl
  apply freeIdle_reaches moves
  · rw [kept]
    exact role_there given
  intro unheld _
  rw [kept]
  apply sound.linked.paired.unlinked given
  · -- The other interface is still there.
    intro leaving
    obtain ⟨link,same⟩ : ∃ link, role = ⟨.leaving,link⟩ := ⟨role.link,by rw [← leaving]⟩
    obtain ⟨j,other,stays⟩ := others (role_of_state.mpr ⟨link,given.trans (congrArg some same)⟩)
    have inside := (sound.linked.held.listed j oldCtx).mpr stays
    rw [refs,join_on,leave_on,drop_on,leave_on,drop_on] at unheld
    split at unheld
    · cases unheld
    · have still := (List.mem_erase_of_ne other).mpr inside
      rw [unheld] at still
      cases still
  · intro coming
    rw [settled oldCtx role.link (by rw [given,← coming])] at member
    cases member

theorem useReassign_reaches (sound : w.Sound) (settled : Settled w.refs) (safe : ReassignSafe cfg env w i) :
    Reaches calm w (vifUseReservedReassign cfg env w i).1 := by
  unfold vifUseReservedReassign
  split
  · exact sound.refl
  split
  · rename_i newCtx oldCtx reserved conf
    split
    · exact sound.refl
    rename_i fit
    have fit' : usable cfg w i newCtx = true := by simpa using fit
    obtain ⟨first,refs,plain⟩ := dropFit_reaches calm sound reserved fit'
    have dropped := first.sound sound
    split
    · exact first.trans (freeIdle_reaches dropped (role_there plain) fun _ _ => plain)
    rename_i taken
    have refs' := (refs_copyToVlans _ i false).trans (moved_refs (w.dropReserved i newCtx) i (role_there plain))
    have second : Reaches calm (w.dropReserved i newCtx)
        (((((w.dropReserved i newCtx).listDel i).listAdd i newCtx).setConf i (some newCtx)).copyToVlans i false) := by
      refine ⟨(moved_listed dropped.listed i newCtx).congr rfl rfl,?_⟩
      rw [refs']
      exact rejoin _ i plain
    have third : Reaches calm _ (freeIdle _ oldCtx) := freeLeft_reaches sound settled conf
      (fun state => safe oldCtx newCtx conf reserved state fit' taken) (second.sound dropped) (refs'.trans (by rw [refs]))
    refine first.trans (second.trans (third.trans (Reaches.same (third.listed.congr rfl rfl) ?_)))
    exact refs_updateChandef _ i _
  · exact sound.refl

end use
end Mac80211.Chan

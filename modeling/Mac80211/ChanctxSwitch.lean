import Mac80211.ChanctxMoves

namespace Mac80211.Chan
open Handover

section loops

theorem reaches_foldl {α : Type} {f : World → α → World} (each : ∀ w a, World.Sound w → Reaches calm w (f w a)) (list : List α)
    (sound : w.Sound) : Reaches calm w (list.foldl f w) := by
  induction list generalizing w with
  | nil => exact sound.refl
  | cons a list ih => exact (each w a sound).trans (ih ((each w a sound).sound sound))

theorem switchFailed_reaches (sound : w.Sound) : Reaches calm w (switchFailed w) := by
  refine reaches_foldl ?_ w.addrs sound
  intro w _ sound
  unfold unreserveAll
  split
  · exact reaches_foldl (fun _ i sound => unreserve_reaches sound i) _ sound
  · exact sound.refl

end loops

section count

theorem foldlM_ok {α β ε : Type} {f : β → α → Except ε β} (list : List α) {b b' : β} (ok : list.foldlM f b = .ok b') :
    ∀ a ∈ list, ∃ c c', f c a = .ok c' := by
  induction list generalizing b with
  | nil =>
    intro a member
    cases member
  | cons head list ih =>
    rw [List.foldlM_cons] at ok
    cases first : f b head with
    | error =>
      rw [first] at ok
      cases ok
    | ok c =>
      rw [first] at ok
      intro a member
      rcases List.mem_cons.mp member with rfl | later
      · exact ⟨b,c,first⟩
      · exact ih ok a later

theorem count_reserved (sound : w.Sound) (counted : countSwitch w = .ok n) (conf : (w.vifs i).chanctxConf = some addr)
    (leaving : w.state addr = some .willBeReplaced) : ∃ newCtx, (w.vifs i).reservedChanctx = some newCtx := by
  obtain ⟨link,role⟩ := role_of_state.mp leaving
  obtain ⟨_,rfl,back⟩ := sound.linked.paired.leaving addr link role
  obtain ⟨ctx,found,roles⟩ := ctx_of_role back
  obtain ⟨b,_,ok⟩ := foldlM_ok w.chanctxList counted ctx (ctx_member found).1
  have state : ctx.replaceState = .replacesOther := stage_inj (congrArg Role.stage roles)
  have old : ctx.replaceCtx = some addr := congrArg Role.link roles
  unfold countCtx at ok
  rw [if_neg (not_not.mpr state),old] at ok
  dsimp only at ok
  split at ok
  · cases ok
  · rename_i all
    have kept := List.length_filter_eq_length_iff.mp (not_not.mp all).symm
    have member : i ∈ w.assignedTo addr := (sound.linked.held.listed i addr).mpr conf
    exact Option.isSome_iff_exists.mp (kept i member)

end count

structure Carried (addr : Nat) (w w' : World) : Prop where
  reaches : Reaches False w w'
  held : ∀ j, w'.refs.held j = w.refs.held j ∨ w'.refs.held j = some addr
  awaited : ∀ j, w'.refs.awaited j = w.refs.awaited j ∨ w.refs.awaited j = some addr
  role : ∀ d, w'.refs.role d = w.refs.role d ∨ d = addr ∧ w'.refs.role d = none ∨
    (∃ link, w.refs.role d = some ⟨.leaving,link⟩) ∧ w'.refs.role d = some ⟨.plain,none⟩

section carried

theorem World.Sound.carried (sound : w.Sound) (addr : Nat) : Carried addr w w :=
  ⟨sound.refl,fun _ => .inl rfl,fun _ => .inl rfl,fun _ => .inl rfl⟩

theorem Carried.trans (first : Carried addr w w') (second : Carried addr w' w'') : Carried addr w w'' where
  reaches := first.reaches.trans second.reaches
  held := by
    intro j
    rcases second.held j with same | moved
    · rw [same]
      exact first.held j
    · exact .inr moved
  awaited := by
    intro j
    rcases first.awaited j with same | had
    · rw [← same]
      exact second.awaited j
    · exact .inr had
  role := by
    intro d
    rcases second.role d with same | gone | ⟨⟨link,leaving⟩,plain⟩
    · rw [same]
      exact first.role d
    · exact .inr (.inl gone)
    · rcases first.role d with same | ⟨-,gone⟩ | ⟨-,before⟩
      · exact .inr (.inr ⟨⟨link,same ▸ leaving⟩,plain⟩)
      · rw [gone] at leaving
        cases leaving
      · rw [before] at leaving
        cases leaving

theorem unreserve_carried (sound : w.Sound) (reserved : (w.vifs i).reservedChanctx = some addr)
    (coming : ∃ link, w.refs.role addr = some ⟨.coming,link⟩) : Carried addr w (vifUnreserveChanctx w i) := by
  obtain ⟨_,coming⟩ := coming
  obtain ⟨_,freed⟩ := unreserve_refs sound reserved
  have users : (vifUnreserveChanctx w i).refs.held = w.refs.held ∧ (vifUnreserveChanctx w i).refs.awaited = (w.refs.drop i).awaited := by
    generalize (vifUnreserveChanctx w i).refs = r at freed
    cases freed <;> exact ⟨rfl,rfl⟩
  refine ⟨unreserve_reaches sound i,?_,?_,?_⟩
  · intro j
    rw [users.1]
    exact .inl rfl
  · intro j
    rw [users.2,drop_awaited]
    by_cases own : j = i
    · subst own
      exact .inr reserved
    · rw [if_neg own]
      exact .inl rfl
  intro d
  generalize (vifUnreserveChanctx w i).refs = r at freed
  cases freed with
  | kept => exact .inl rfl
  | parted old _ _ pair =>
    unfold Refs.part
    rw [setRole_role,setRole_role]
    by_cases gone : d = addr
    · rw [if_pos gone]
      exact .inr (.inl ⟨gone,rfl⟩)
    · rw [if_neg gone]
      by_cases kept : d = old
      · subst kept
        rw [if_pos rfl]
        rcases sound.linked.paired.other pair with ⟨other,-⟩ | ⟨-,leaving⟩
        · cases other
        · exact .inr (.inr ⟨⟨_,leaving⟩,rfl⟩)
      · rw [if_neg kept]
        exact .inl rfl
  | removed _ _ plain =>
    rw [show (w.refs.drop i).role addr = w.refs.role addr from rfl,coming] at plain
    cases plain

theorem finalize_carried (cfg : Config) (env : Env) (sound : w.Sound)
    (coming : ∀ role, w.refs.role addr = some role → role.stage = .coming) (i : Nat) : Carried addr w (finalizeDeferred cfg env addr w i) := by
  unfold finalizeDeferred
  split
  · exact sound.carried addr
  rename_i deferred
  have facts : (vifHasInPlaceReservation w i = false ∧ (w.vifs i).reservedChanctx = some addr) ∧ (w.vifs i).reservedReady = true := by
    simpa using deferred
  obtain ⟨⟨-,reserved⟩,ready⟩ := facts
  obtain ⟨_,given⟩ := Option.ne_none_iff_exists'.mp (sound.linked.liveAwaited i addr reserved)
  obtain ⟨ctx,found,rfl⟩ := ctx_of_role given
  have state : ctx.replaceState = .replacesOther := stage_inj (coming _ given)
  have unfit : usable cfg w i addr = false := by
    unfold usable
    rw [found]
    dsimp only
    rw [state]
    rfl
  have refused : (if (w.vifs i).chanctxConf.isSome then vifUseReservedReassign cfg env w i else vifUseReservedAssign cfg env w i) =
      (w,some .inval) := by
    cases conf : (w.vifs i).chanctxConf with
    | none =>
      unfold vifUseReservedAssign
      rw [ready,reserved,conf]
      dsimp only
      rw [unfit]
      rfl
    | some =>
      unfold vifUseReservedReassign
      rw [ready,reserved,conf]
      dsimp only
      rw [unfit]
      rfl
  rw [refused]
  refine unreserve_carried sound reserved ⟨ctx.replaceCtx,?_⟩
  rw [given]
  exact congrArg some (congrArg (Role.mk · ctx.replaceCtx) (coming _ given))

theorem deferred_carried (list : List Nat) (sound : w.Sound) (coming : ∀ role, w.refs.role addr = some role → role.stage = .coming) :
    Carried addr w (list.foldl (finalizeDeferred cfg env addr) w) := by
  induction list generalizing w with
  | nil => exact sound.carried addr
  | cons i list ih =>
    have first := finalize_carried cfg env sound coming i
    refine first.trans (ih (first.reaches.sound sound) ?_)
    intro role given
    rcases first.role addr with same | ⟨-,gone⟩ | ⟨⟨_,leaving⟩,-⟩
    · exact coming role (same.symm.trans given)
    · rw [gone] at given
      cases given
    · cases coming _ leaving

end carried

section swap

theorem switchConf_refs (w : World) (addr i : Nat) : (switchConf addr w i).refs = {w.refs with
    held := Function.update w.refs.held i (if vifHasInPlaceReservation w i then some addr else w.refs.held i)} ∧
      (w.Listed → (switchConf addr w i).Listed) := by
  unfold switchConf
  cases vifHasInPlaceReservation w i with
  | false =>
    refine ⟨?_,id⟩
    change w.refs = {w.refs with held := Function.update w.refs.held i (w.refs.held i)}
    rw [Function.update_eq_self]
  | true =>
    refine ⟨?_,fun listed => listed.congr rfl rfl⟩
    change (vifUpdateChandef ((w.setConf i (some addr)).copyToVlans i false) i _).refs = _
    rw [refs_updateChandef,refs_copyToVlans,refs_setConf]
    rfl

theorem inPlace_iff : vifHasInPlaceReservation w i = true ↔ ∃ oldCtx newCtx, w.refs.held i = some oldCtx ∧ w.refs.awaited i = some newCtx ∧
    (∃ link, w.refs.role oldCtx = some ⟨.leaving,link⟩) ∧ ∃ link, w.refs.role newCtx = some ⟨.coming,link⟩ := by
  unfold vifHasInPlaceReservation
  constructor
  · intro place
    split at place
    · rename_i oldCtx newCtx conf reserved
      rw [Bool.and_eq_true,beq_iff_eq,beq_iff_eq] at place
      exact ⟨oldCtx,newCtx,conf,reserved,role_of_state.mp place.1,role_of_state.mp place.2⟩
    · cases place
  · rintro ⟨oldCtx,newCtx,conf,reserved,leaving,coming⟩
    rw [show (w.vifs i).chanctxConf = some oldCtx from conf,show (w.vifs i).reservedChanctx = some newCtx from reserved]
    rw [Bool.and_eq_true,beq_iff_eq,beq_iff_eq]
    exact ⟨role_of_state.mpr leaving,role_of_state.mpr coming⟩

theorem switchConf_fold (addr : Nat) (list : List Nat) (listed : w.Listed) :
    (list.foldl (switchConf addr) w).Listed ∧ ∃ held, (list.foldl (switchConf addr) w).refs = {w.refs with held := held} ∧
      (∀ j, held j = w.refs.held j ∨ held j = some addr ∧ j ∈ list) ∧
      ∀ j ∈ list, vifHasInPlaceReservation w j = true → held j = some addr := by
  induction list generalizing w with
  | nil => exact ⟨listed,w.refs.held,rfl,fun _ => .inl rfl,fun j member => (by cases member)⟩
  | cons i list ih =>
    obtain ⟨first,kept⟩ := switchConf_refs w addr i
    obtain ⟨listed',held,refs,moved,placed⟩ := ih (kept listed)
    have written (j : Nat) : (switchConf addr w i).refs.held j = w.refs.held j ∨ (switchConf addr w i).refs.held j = some addr ∧ j = i := by
      rw [first]
      dsimp only
      rw [Function.update_apply]
      split
      · rename_i here
        split
        · exact .inr ⟨rfl,here⟩
        · exact .inl (congrArg w.refs.held here.symm)
      · exact .inl rfl
    refine ⟨listed',held,?_,?_,?_⟩
    · rw [List.foldl_cons,refs,first]
    · intro j
      rcases moved j with same | ⟨new,later⟩
      · rcases written j with before | ⟨new,rfl⟩
        · exact .inl (same.trans before)
        · exact .inr ⟨same.trans new,List.mem_cons_self⟩
      · exact .inr ⟨new,List.mem_cons_of_mem i later⟩
    intro j member place
    by_cases here : j = i
    · subst here
      have new : (switchConf addr w j).refs.held j = some addr := by
        rw [first]
        dsimp only
        rw [Function.update_self,if_pos place]
      rcases moved j with same | ⟨new',_⟩
      · exact same.trans new
      · exact new'
    · have place' : vifHasInPlaceReservation (switchConf addr w i) j = true := by
        rw [inPlace_iff,first]
        dsimp only
        rw [Function.update_of_ne here]
        exact inPlace_iff.mp place
      exact placed j ((List.mem_cons.mp member).resolve_left here) place'

theorem switchLists_refs (linked : Linked r) (refs : w.refs = {r with held := held}) (reserved : r.awaited i = some addr)
    (new : held i = some addr) : (switchLists addr w i).refs = {((r.drop i).leave i).join i addr with held := held} := by
  have conf : (w.vifs i).chanctxConf = some addr := (congrFun (congrArg Refs.held refs) i).trans new
  have own : (w.vifs i).reservedChanctx = some addr := (congrFun (congrArg Refs.awaited refs) i).trans reserved
  have indexed : Indexed w.refs.awaited w.refs.waits := by
    rw [refs]
    exact linked.awaited
  have there : w.refs.role addr ≠ none := by
    rw [refs]
    exact linked.liveAwaited i addr reserved
  have dropped := refs_dropReserved indexed there own
  have there' : ((w.dropReserved i addr).listDel i).refs.role addr ≠ none := by
    rw [refs_listDel,dropped]
    exact there
  unfold switchLists
  rw [if_neg (not_not.mpr conf),refs_listAdd _ i there',refs_listDel,dropped,refs]
  rfl

theorem switchLists_listed (listed : w.Listed) (addr i : Nat) : (switchLists addr w i).Listed := by
  unfold switchLists
  split
  · exact listed
  · exact moved_listed (dropReserved_listed listed i addr) i addr

theorem switchLists_fold (list : List Nat) (nodup : list.Nodup) (listed : w.Listed) (linked : Linked r) (there : ∃ role, r.role addr = some role)
    (refs : w.refs = {r with held := held}) (moved : ∀ j, held j = r.held j ∨ held j = some addr ∧ j ∈ list)
    (reserved : ∀ j ∈ list, r.awaited j = some addr) :
    (list.foldl (switchLists addr) w).Listed ∧ Relation.ReflTransGen (Move False) r (list.foldl (switchLists addr) w).refs ∧
      (list.foldl (switchLists addr) w).refs.held = held ∧ (list.foldl (switchLists addr) w).refs.role = r.role ∧
      ∀ j, (list.foldl (switchLists addr) w).refs.awaited j = r.awaited j ∨ r.awaited j = some addr := by
  induction list generalizing w r with
  | nil =>
    have same : w.refs = r := by
      rw [refs]
      ext1
      · funext j
        rcases moved j with same | ⟨_,inside⟩
        · exact same
        · cases inside
      all_goals rfl
    rw [List.foldl_nil,same]
    refine ⟨listed,.refl,?_,rfl,fun _ => .inl rfl⟩
    exact (congrArg Refs.held same).symm.trans (congrArg Refs.held refs)
  | cons i list ih =>
    obtain ⟨fresh,nodup⟩ := List.nodup_cons.mp nodup
    have own := reserved i List.mem_cons_self
    have listed' := switchLists_listed listed addr i
    by_cases new : held i = some addr
    · have refs' := switchLists_refs linked refs own new
      obtain ⟨role,given⟩ := there
      have joined : Relation.ReflTransGen (Move False) r (((r.drop i).leave i).join i addr) := by
        refine ((Relation.ReflTransGen.single (.drop i)).tail (.leave i)).tail (.join i addr role ?_ given ?_)
        · rw [leave_held,if_pos rfl]
        · exact fun never => never.elim
      have moved' (j : Nat) : held j = (((r.drop i).leave i).join i addr).held j ∨ held j = some addr ∧ j ∈ list := by
        rw [join_held,leave_held]
        by_cases here : j = i
        · subst here
          rw [if_pos rfl]
          exact .inl new
        · rw [if_neg here,if_neg here]
          exact (moved j).imp_right fun both => ⟨both.1,(List.mem_cons.mp both.2).resolve_left here⟩
      have reserved' (j : Nat) (member : j ∈ list) : (((r.drop i).leave i).join i addr).awaited j = some addr := by
        rw [join_awaited,leave_awaited,drop_awaited,if_neg fun (here : j = i) => fresh (here ▸ member)]
        exact reserved j (List.mem_cons_of_mem i member)
      obtain ⟨listed'',moves,held',role',awaited⟩ := ih nodup listed' (linked.moves joined) ⟨role,given⟩ refs' moved' reserved'
      refine ⟨listed'',joined.trans moves,held',role',?_⟩
      intro j
      rcases awaited j with same | had
      · rw [List.foldl_cons,same,join_awaited,leave_awaited,drop_awaited]
        by_cases here : j = i
        · subst here
          exact .inr own
        · rw [if_neg here]
          exact .inl rfl
      · rw [join_awaited,leave_awaited,drop_awaited] at had
        split at had
        · cases had
        · exact .inr had
    have same : switchLists addr w i = w := by
      unfold switchLists
      rw [if_pos]
      exact fun conf => new ((congrFun (congrArg Refs.held refs) i).symm.trans conf)
    rw [List.foldl_cons,same]
    apply ih nodup listed linked there refs
    · intro j
      rcases moved j with kept | ⟨got,member⟩
      · exact .inl kept
      · rcases List.mem_cons.mp member with rfl | later
        · exact absurd got new
        · exact .inr ⟨got,later⟩
    · exact fun j member => reserved j (List.mem_cons_of_mem i member)

theorem switchVifs_carried (cfg : Config) (env : Env) (sound : w.Sound) (coming : w.refs.role addr = some ⟨.coming,link⟩) :
    Carried addr w (switchVifs cfg env w addr) ∧ ∀ j, w.refs.awaited j = some addr → vifHasInPlaceReservation w j = true →
      (switchVifs cfg env w addr).refs.held j = some addr := by
  obtain ⟨listed,held,refs,moved,placed⟩ := switchConf_fold addr (w.reservedBy addr) sound.listed
  obtain ⟨same,kept⟩ := recalc_refs cfg env ((w.reservedBy addr).foldl (switchConf addr) w) addr
  unfold switchVifs
  dsimp only
  revert same kept refs listed
  generalize (w.reservedBy addr).foldl (switchConf addr) w = w₁
  intro listed refs same kept
  have listed₂ := kept listed
  have refs₂ := same.trans refs
  generalize recalcChanctxChantype cfg env w₁ addr = w₂ at listed₂ refs₂
  have list : w₂.reservedBy addr = w.reservedBy addr := congrFun (congrArg Refs.waits refs₂) addr
  have reserved (j : Nat) : j ∈ w.reservedBy addr ↔ w.refs.awaited j = some addr := sound.linked.awaited.listed j addr
  obtain ⟨listed₃,moves,held₃,role₃,awaited₃⟩ := switchLists_fold (w.reservedBy addr) (sound.linked.awaited.once addr) listed₂ sound.linked
    ⟨_,coming⟩ refs₂ moved fun j member => (reserved j).mp member
  rw [list]
  revert listed₃ moves held₃ role₃ awaited₃
  generalize (w.reservedBy addr).foldl (switchLists addr) w₂ = w₃
  intro listed₃ moves held₃ role₃ awaited₃
  have first : Carried addr w w₃ := by
    refine ⟨⟨listed₃,moves⟩,?_,awaited₃,fun d => .inl (congrFun role₃ d)⟩
    intro j
    rw [held₃]
    exact (moved j).imp_right And.left
  have second : Carried addr w₃ ((w₃.reservedBy addr).foldl (finalizeDeferred cfg env addr) w₃) := by
    apply deferred_carried _ (first.reaches.sound sound)
    intro _ given
    rw [role₃,coming] at given
    cases given
    rfl
  refine ⟨first.trans second,?_⟩
  intro j own place
  rcases second.held j with same | new
  · rw [same,held₃]
    exact placed j ((reserved j).mpr own) place
  · exact new

end swap

-- In the loop: whoever is still on a leaving context awaits a coming one of the rest.
def Pending (rest : List Nat) (r : Refs Nat Nat) : Prop := ∀ j a, r.held j = some a → (∃ link, r.role a = some ⟨.leaving,link⟩) →
  ∃ d ∈ rest, r.awaited j = some d ∧ ∃ link, r.role d = some ⟨.coming,link⟩

section contexts

theorem Pending.pass (pending : Pending (addr :: rest) r) (other : ∀ link, r.role addr ≠ some ⟨.coming,link⟩) :
    Pending rest r := by
  intro j a held leaving
  obtain ⟨d,member,awaited,link,coming⟩ := pending j a held leaving
  rcases List.mem_cons.mp member with rfl | later
  · exact absurd coming (other link)
  · exact ⟨d,later,awaited,link,coming⟩

theorem switchVifs_pending (carried : Carried addr w w') (coming : w.refs.role addr = some ⟨.coming,link⟩)
    (moved : ∀ j, w.refs.awaited j = some addr → vifHasInPlaceReservation w j = true → w'.refs.held j = some addr)
    (pending : Pending (addr :: rest) w.refs) : Pending rest w'.refs := by
  intro j a held leaving
  obtain ⟨link',leaving⟩ := leaving
  have away : w'.refs.held j ≠ some addr := by
    intro here
    obtain rfl : a = addr := Option.some.inj (held.symm.trans here)
    rcases carried.role a with same | ⟨-,gone⟩ | ⟨-,plain⟩
    · rw [same,coming] at leaving
      cases leaving
    · rw [gone] at leaving
      cases leaving
    · rw [plain] at leaving
      cases leaving
  have before : w.refs.held j = some a := ((carried.held j).resolve_right away).symm.trans held
  have role : w.refs.role a = some ⟨.leaving,link'⟩ := by
    rcases carried.role a with same | ⟨-,gone⟩ | ⟨-,plain⟩
    · exact same.symm.trans leaving
    · rw [gone] at leaving
      cases leaving
    · rw [plain] at leaving
      cases leaving
  obtain ⟨d,member,awaited,next,come⟩ := pending j a before ⟨link',role⟩
  have other : d ≠ addr := by
    rintro rfl
    exact away (moved j awaited (inPlace_iff.mpr ⟨a,d,before,awaited,⟨link',role⟩,next,come⟩))
  refine ⟨d,(List.mem_cons.mp member).resolve_left other,?_,next,?_⟩
  · rcases carried.awaited j with same | own
    · exact same.trans awaited
    · exact absurd (Option.some.inj (awaited.symm.trans own)) other
  · rcases carried.role d with same | ⟨here,-⟩ | ⟨⟨_,leaves⟩,-⟩
    · exact same.trans come
    · exact absurd here other
    · rw [come] at leaves
      cases leaves

theorem switchCtx_spec (cfg : Config) (env : Env) (sound : w.Sound) (pending : Pending (addr :: rest) w.refs) :
    ∃ w', switchCtx cfg env w addr = .ok w' ∧ Reaches False w w' ∧ Pending rest w'.refs := by
  unfold switchCtx
  cases found : w.ctx addr with
  | none =>
    refine ⟨w,rfl,sound.refl,pending.pass ?_⟩
    intro link coming
    rw [(refs_listed w addr).mpr found] at coming
    cases coming
  | some ctx =>
    dsimp only
    split
    · rename_i state
      refine ⟨w,rfl,sound.refl,pending.pass ?_⟩
      intro link coming
      rw [role_of found] at coming
      exact state (stage_inj (congrArg Role.stage (Option.some.inj coming)))
    · rename_i state
      have coming : w.refs.role addr = some ⟨.coming,ctx.replaceCtx⟩ := role_state found (not_not.mp state)
      obtain ⟨old,link,-⟩ := sound.linked.paired.coming addr _ coming
      obtain ⟨carried,moved⟩ := switchVifs_carried cfg env sound coming
      rw [link,if_neg (Option.some_ne_none old)]
      exact ⟨_,rfl,carried.reaches,switchVifs_pending carried coming moved pending⟩

theorem switchCtx_fold (cfg : Config) (env : Env) (list : List Nat) (sound : w.Sound) (pending : Pending list w.refs) :
    ∃ w', list.foldlM (switchCtx cfg env) w = .ok w' ∧ Reaches False w w' ∧ Pending [] w'.refs := by
  induction list generalizing w with
  | nil => exact ⟨w,rfl,sound.refl,pending⟩
  | cons addr list ih =>
    obtain ⟨_,ok,reaches,pending⟩ := switchCtx_spec cfg env sound pending
    obtain ⟨w',ok',reaches',pending'⟩ := ih (reaches.sound sound) pending
    refine ⟨w',?_,reaches.trans reaches',pending'⟩
    rw [List.foldlM_cons,ok]
    exact ok'

end contexts

section replaced

def Vacant (r : Refs Nat Nat) : Prop := ∀ a link, r.role a = some ⟨.leaving,link⟩ → r.on a = []

theorem freeReplaced_spec (sound : w.Sound) (vacant : Vacant w.refs) (addr : Nat) :
    Reaches False w (freeReplaced w addr) ∧ Vacant (freeReplaced w addr).refs ∧
      ∀ d link, (freeReplaced w addr).refs.role d = some ⟨.leaving,link⟩ → d ≠ addr ∧ w.refs.role d = some ⟨.leaving,link⟩ := by
  have stay (other : ∀ link, w.refs.role addr ≠ some ⟨.leaving,link⟩) : Reaches False w w ∧ Vacant w.refs ∧
      ∀ d link, w.refs.role d = some ⟨.leaving,link⟩ → d ≠ addr ∧ w.refs.role d = some ⟨.leaving,link⟩ := by
    refine ⟨sound.refl,vacant,?_⟩
    intro d link leaving
    refine ⟨?_,leaving⟩
    rintro rfl
    exact other link leaving
  unfold freeReplaced
  cases found : w.ctx addr with
  | none =>
    apply stay
    intro link leaving
    rw [(refs_listed w addr).mpr found] at leaving
    cases leaving
  | some ctx =>
    dsimp only
    split
    · rename_i state
      apply stay
      intro link leaving
      rw [role_of found] at leaving
      exact state (stage_inj (congrArg Role.stage (Option.some.inj leaving)))
    rename_i state
    have leaving : w.refs.role addr = some ⟨.leaving,ctx.replaceCtx⟩ := role_state found (not_not.mp state)
    obtain ⟨new,link,-⟩ := sound.linked.paired.leaving addr _ leaving
    have unheld := vacant addr _ leaving
    have unwaited := sound.linked.closed addr _ leaving
    rw [link] at leaving ⊢
    obtain ⟨listed,refs⟩ := part_refs sound leaving unheld unwaited
    have fewer : ∀ d link, (w.refs.part new addr).role d = some ⟨.leaving,link⟩ → d ≠ addr ∧ w.refs.role d = some ⟨.leaving,link⟩ := by
      intro d link leaves
      unfold Refs.part at leaves
      rw [setRole_role,setRole_role] at leaves
      split at leaves
      · cases leaves
      · rename_i other
        split at leaves
        · cases leaves
        · exact ⟨other,leaves⟩
    rw [refs]
    refine ⟨Reaches.step listed refs (.part new addr .leaving leaving unheld unwaited),?_,fewer⟩
    intro d link leaves
    exact vacant d link (fewer d link leaves).2

theorem freeReplaced_fold (list : List Nat) (sound : w.Sound) (vacant : Vacant w.refs) : Reaches False w (list.foldl freeReplaced w) ∧
    ∀ d link, (list.foldl freeReplaced w).refs.role d = some ⟨.leaving,link⟩ → d ∉ list ∧ w.refs.role d = some ⟨.leaving,link⟩ := by
  induction list generalizing w with
  | nil => exact ⟨sound.refl,fun d link leaving => ⟨List.not_mem_nil,leaving⟩⟩
  | cons addr list ih =>
    obtain ⟨reaches,vacant',fewer⟩ := freeReplaced_spec sound vacant addr
    obtain ⟨reaches',fewer'⟩ := ih (reaches.sound sound) vacant'
    refine ⟨reaches.trans reaches',?_⟩
    intro d link leaving
    obtain ⟨outside,before⟩ := fewer' d link leaving
    obtain ⟨other,first⟩ := fewer d link before
    exact ⟨fun member => outside ((List.mem_cons.mp member).resolve_left other),first⟩

end replaced

variable (cfg : Config) (env : Env) in
-- Who is on a context that the last loop frees has reserved one that replaces another.
def SwitchSafe (w : World) : Prop := ∀ n, countSwitch w = .ok n → chswSwitch cfg env w n = none → ∀ i oldCtx newCtx,
  (w.vifs i).chanctxConf = some oldCtx → w.state oldCtx = some .willBeReplaced → (w.vifs i).reservedChanctx = some newCtx →
    w.state newCtx = some .replacesOther

section switch
variable {w : World}

theorem role_addr (given : w.refs.role addr = some role) : addr ∈ w.addrs := by
  by_contra outside
  rw [(refs_listed w addr).mpr ((ctx_addrs w addr).mpr outside)] at given
  cases given

theorem switch_reaches (sound : w.Sound) (settled : Settled w.refs) (safe : SwitchSafe cfg env w) :
    Reaches False w (vifUseReservedSwitch cfg env w).1 ∧ Settled (vifUseReservedSwitch cfg env w).1.refs := by
  have failed : Reaches False w (switchFailed w) ∧ Settled (switchFailed w).refs :=
    ⟨switchFailed_reaches sound,settled.moves trivial sound.linked (switchFailed_reaches sound).moves⟩
  unfold vifUseReservedSwitch
  split
  · exact failed
  · exact ⟨sound.refl,settled⟩
  rename_i n counted
  split
  · exact failed
  rename_i accepted
  have pending : Pending w.addrs w.refs := by
    intro j a held leaving
    have state : w.state a = some .willBeReplaced := role_of_state.mpr leaving
    obtain ⟨newCtx,reserved⟩ := count_reserved sound counted held state
    obtain ⟨link,coming⟩ := role_of_state.mp (safe n counted accepted j a newCtx held state reserved)
    exact ⟨newCtx,role_addr coming,reserved,link,coming⟩
  obtain ⟨w',ok,reaches,pending'⟩ := switchCtx_fold cfg env w.addrs sound pending
  rw [ok]
  have sound' := reaches.sound sound
  -- Everybody has moved, so that the old contexts can go.
  have vacant : Vacant w'.refs := by
    intro a link leaving
    apply List.eq_nil_iff_forall_not_mem.mpr
    intro j member
    obtain ⟨d,inside,-⟩ := pending' j a ((sound'.linked.held.listed j a).mp member) ⟨link,leaving⟩
    cases inside
  obtain ⟨freed,gone⟩ := freeReplaced_fold w'.addrs sound' vacant
  refine ⟨reaches.trans freed,?_⟩
  intro a link coming
  obtain ⟨old,-,leaving⟩ := ((reaches.trans freed).sound sound).linked.paired.coming a link coming
  obtain ⟨outside,before⟩ := gone old _ leaving
  exact absurd (role_addr before) outside

end switch
end Mac80211.Chan

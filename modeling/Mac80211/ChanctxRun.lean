import Mac80211.ChanctxSwitch
import Mac80211.Transitions

namespace Mac80211.Chan
open Handover
open Transitions (Run)

section safe
variable (cfg : Config) (env : Env) (w : World) (i : Nat)

-- The context left is not freed while it is to be replaced, unless only the interface has reserved the one
-- that replaces it.
def LeaveSafe : Prop := ∀ ctx newCtx, (w.vifs i).chanctxConf = some ctx.addr → w.ctx ctx.addr = some ctx →
  ctx.replaceState = .willBeReplaced → ctx.replaceCtx = some newCtx →
    (∃ j, j ≠ i ∧ (w.vifs j).chanctxConf = some ctx.addr) ∨ w.reservedBy newCtx = [i]

def ReleaseSafe : Prop := LeaveSafe w i ∧ ∀ oldCtx, (w.vifs i).chanctxConf = some oldCtx → useReservedSwitch w i = true →
  SwitchSafe cfg env (leaveChanctx cfg env w i oldCtx)

def UseSafe : Prop := ∀ newCtx, (w.vifs i).reservedChanctx = some newCtx → w.state newCtx ≠ some .willBeReplaced →
  (w.vifs i).reservedReady = false → ReassignSafe cfg env (w.setReady i) i ∧
    ((useReservedPlain cfg env (w.setReady i) i newCtx).2 = none → switchDue w i newCtx = true →
      SwitchSafe cfg env (useReservedPlain cfg env (w.setReady i) i newCtx).1)

-- ieee80211_stop_ap clears the copies first; an ieee80211_start_ap that fails does not.
def Cleared : Prop := ∀ conf ∈ (w.vifs i).vlans, conf = none

end safe

def Fine (cfg : Config) (w : World) : Event → Prop
  | .useChannel env i _ _ => env.allowed = none → Cleared w i ∧ ReleaseSafe cfg env w i
  | .releaseChannel env i => Cleared w i ∧ ReleaseSafe cfg env w i
  | .reserve _ i _ _ _ => (w.vifs i).reservedChanctx = none
  | .unreserve _ => True
  | .useReserved env i => UseSafe cfg env w i
  | .copyToVlans .. | .openVlan .. | .closeVlan .. => True

def initial (vifs : Nat → Vif) : World := ⟨[],fun i => {vifs i with chanctxConf := none,reservedChanctx := none,vlans := []},⟨[],1⟩⟩

def World.refers (w : World) (addr : Nat) : Prop :=
  (∃ i, (w.vifs i).chanctxConf = some addr ∨ (w.vifs i).reservedChanctx = some addr ∨ some addr ∈ (w.vifs i).vlans) ∨
    ∃ ctx ∈ w.chanctxList, ctx.replaceCtx = some addr

structure World.Consistent (w : World) : Prop where
  distinct : w.addrs.Nodup
  assigned : ∀ ctx ∈ w.chanctxList, ctx.assignedVifs.Nodup ∧ ∀ i, i ∈ ctx.assignedVifs ↔ (w.vifs i).chanctxConf = some ctx.addr
  reserved : ∀ ctx ∈ w.chanctxList, ctx.reservedVifs.Nodup ∧ ∀ i, i ∈ ctx.reservedVifs ↔ (w.vifs i).reservedChanctx = some ctx.addr
  replaces : ∀ ctx ∈ w.chanctxList, ctx.replaceState = .replacesOther → ∃ old ∈ w.chanctxList,
    ctx.replaceCtx = some old.addr ∧ old.replaceState = .willBeReplaced ∧ old.replaceCtx = some ctx.addr
  replaced : ∀ ctx ∈ w.chanctxList, ctx.replaceState = .willBeReplaced → ∃ new ∈ w.chanctxList,
    ctx.replaceCtx = some new.addr ∧ new.replaceState = .replacesOther ∧ new.replaceCtx = some ctx.addr
  unreplaced : ∀ ctx ∈ w.chanctxList, ctx.replaceState = .unreplaced → ctx.replaceCtx = none
  copied : ∀ i, ∀ conf ∈ (w.vifs i).vlans, conf = none ∨ conf = (w.vifs i).chanctxConf
  live : ∀ addr, w.refers addr → addr ∈ w.addrs ∧ addr ∈ w.heap.allocated

def World.Copied (w : World) : Prop := ∀ i, (w.vifs i).Copied

structure World.Good (w : World) : Prop where
  sound : w.Sound
  settled : Settled w.refs

section kept
variable {w w' : World}

theorem World.Good.reach (good : w.Good) (reaches : Reaches True w w') : w'.Good :=
  ⟨reaches.sound good.sound,good.settled.moves trivial good.sound.linked reaches.moves⟩

theorem Reaches.loose (reaches : Reaches calm w w') : Reaches False w w' :=
  ⟨reaches.listed,Relation.ReflTransGen.mono (fun _ _ move => move.loose) _ _ reaches.moves⟩

theorem good_consistent (good : w.Good) (copied : w.Copied) : w.Consistent := by
  obtain ⟨⟨listed,linked⟩,-⟩ := good
  have there {role : Role Nat} {addr : Nat} (given : w.refs.role addr = some role) :
      ∃ ctx ∈ w.chanctxList, ctx.addr = addr ∧ ctx.role = role := by
    obtain ⟨ctx,found,same⟩ := ctx_of_role given
    exact ⟨ctx,(ctx_member found).1,(ctx_member found).2,same⟩
  constructor
  · exact listed.once
  · intro ctx member
    rw [← assigned_of (ctx_of_mem listed.once member)]
    exact ⟨linked.held.once ctx.addr,fun i => linked.held.listed i ctx.addr⟩
  · intro ctx member
    rw [← reserved_of (ctx_of_mem listed.once member)]
    exact ⟨linked.awaited.once ctx.addr,fun i => linked.awaited.listed i ctx.addr⟩
  · intro ctx member state
    have coming : w.refs.role ctx.addr = some ⟨.coming,ctx.replaceCtx⟩ := role_state (ctx_of_mem listed.once member) state
    obtain ⟨addr,link,back⟩ := linked.paired.coming _ _ coming
    obtain ⟨old,inside,rfl,role⟩ := there back
    exact ⟨old,inside,link,stage_inj (congrArg Role.stage role),congrArg Role.link role⟩
  · intro ctx member state
    have leaving : w.refs.role ctx.addr = some ⟨.leaving,ctx.replaceCtx⟩ := role_state (ctx_of_mem listed.once member) state
    obtain ⟨addr,link,back⟩ := linked.paired.leaving _ _ leaving
    obtain ⟨new,inside,rfl,role⟩ := there back
    exact ⟨new,inside,link,stage_inj (congrArg Role.stage role),congrArg Role.link role⟩
  · intro ctx member state
    exact linked.paired.plain ctx.addr _ (role_state (ctx_of_mem listed.once member) state)
  · exact copied
  intro addr refers
  rw [listed.blocks,and_self]
  have held (i : Nat) (conf : (w.vifs i).chanctxConf = some addr) : addr ∈ w.addrs := by
    obtain ⟨role,given⟩ := Option.ne_none_iff_exists'.mp (linked.liveHeld i addr conf)
    exact role_addr given
  rcases refers with ⟨i,conf | reserved | vlan⟩ | ⟨ctx,member,link⟩
  · exact held i conf
  · obtain ⟨role,given⟩ := Option.ne_none_iff_exists'.mp (linked.liveAwaited i addr reserved)
    exact role_addr given
  · rcases copied i _ vlan with none_ | same
    · cases none_
    · exact held i same.symm
  · have pair : w.refs.role ctx.addr = some ⟨ctx.replaceState.stage,some addr⟩ := by
      rw [role_state (ctx_of_mem listed.once member) rfl,link]
    rcases linked.paired.other pair with ⟨-,back⟩ | ⟨-,back⟩ <;> exact role_addr back

theorem initial_good (vifs : Nat → Vif) : (initial vifs).Good := by
  refine ⟨⟨⟨List.nodup_nil,rfl,?_⟩,⟨?_,?_,?_,?_,⟨?_,?_,?_⟩,?_⟩⟩,?_⟩
  · intro addr member
    cases member
  · refine ⟨?_,fun _ => List.nodup_nil⟩
    intro i addr
    constructor
    · intro member
      cases member
    · intro points
      cases points
  · refine ⟨?_,fun _ => List.nodup_nil⟩
    intro i addr
    constructor
    · intro member
      cases member
    · intro points
      cases points
  · intro i _ points
    cases points
  · intro i _ points
    cases points
  all_goals
    intro _ _ given
    cases given

section
variable (good : w.Good)
include good

theorem leave_reaches (cfg : Config) (env : Env) (conf : (w.vifs i).chanctxConf = some addr) (safe : LeaveSafe w i) :
    Reaches True w (leaveChanctx cfg env w i addr) := by
  have first : Reaches True w (vifUnreserveChanctx w i) := unreserve_reaches good.sound i
  have good' := good.reach first
  have held : (vifUnreserveChanctx w i).refs.held i = some addr := (congrFun (unreserve_held good.sound i) i).trans conf
  obtain ⟨listed,refs⟩ := assign_none good'.sound cfg env i
  have second : Reaches True (vifUnreserveChanctx w i) (assignVifChanctx cfg env (vifUnreserveChanctx w i) i none).1 :=
    Reaches.step listed refs (.leave i)
  have role : (assignVifChanctx cfg env (vifUnreserveChanctx w i) i none).1.refs.role addr = (vifUnreserveChanctx w i).refs.role addr := by
    rw [refs,leave_role]
  obtain ⟨own,given⟩ := Option.ne_none_iff_exists'.mp (good'.sound.linked.liveHeld i addr held)
  refine first.trans (second.trans (freeIdle_reaches (second.sound good'.sound) ?_ ?_))
  · rw [role]
    exact role_there given
  intro unheld _
  rw [role]
  apply good'.sound.linked.paired.unlinked given
  · intro stage
    have leaving : (vifUnreserveChanctx w i).refs.role addr = some ⟨.leaving,own.link⟩ := by rw [given,← stage]
    have before := unreserve_leaving good.sound leaving
    obtain ⟨newCtx,link,back⟩ := good.sound.linked.paired.leaving addr _ before
    obtain ⟨ctx,found,roles⟩ := ctx_of_role before
    obtain rfl := (ctx_member found).2
    have state : ctx.replaceState = .willBeReplaced := stage_inj (congrArg Role.stage roles)
    rcases safe ctx newCtx conf found state ((congrArg Role.link roles).trans link) with ⟨j,other,stays⟩ | alone
    · have member : j ∈ (vifUnreserveChanctx w i).refs.on ctx.addr :=
        (good'.sound.linked.held.listed j ctx.addr).mpr ((congrFun (unreserve_held good.sound i) j).trans stays)
      have still := (List.mem_erase_of_ne other).mpr member
      rw [refs,leave_on] at unheld
      rw [unheld] at still
      cases still
    -- The replacing context has gone with its only reservation.
    have list : w.refs.waits newCtx = [i] := alone
    have member : i ∈ w.refs.waits newCtx := list ▸ List.mem_singleton_self i
    have freed := (unreserve_refs good.sound ((good.sound.linked.awaited.listed i newCtx).mp member)).2
    generalize (vifUnreserveChanctx w i).refs = r at freed leaving
    cases freed with
    | kept used =>
      refine absurd ⟨good.settled newCtx _ back,?_⟩ used
      rw [drop_waits,list,List.erase_cons_head]
    | parted old _ _ pair =>
      rw [drop_role,back] at pair
      cases pair
      unfold Refs.part at leaving
      rw [setRole_role,setRole_role,if_pos rfl] at leaving
      split at leaving <;> cases leaving
    | removed _ _ plain =>
      rw [drop_role,back] at plain
      cases plain
  · intro stage
    have coming : (vifUnreserveChanctx w i).refs.role addr = some ⟨.coming,own.link⟩ := by rw [given,← stage]
    have member := (good'.sound.linked.held.listed i addr).mpr held
    rw [good'.settled addr _ coming] at member
    cases member

theorem release_reaches (cfg : Config) (env : Env) (safe : ReleaseSafe cfg env w i) :
    Reaches False w (vifReleaseChannel cfg env w i) ∧ Settled (vifReleaseChannel cfg env w i).refs := by
  unfold vifReleaseChannel
  split
  · exact ⟨good.sound.refl,good.settled⟩
  · rename_i oldCtx conf
    have left := leave_reaches good cfg env conf safe.1
    have good' := good.reach left
    split
    · rename_i due
      obtain ⟨reaches,settled⟩ := switch_reaches good'.sound good'.settled (safe.2 oldCtx conf due)
      exact ⟨left.loose.trans reaches,settled⟩
    · exact ⟨left.loose,good'.settled⟩

theorem takeChanctx_reaches (cfg : Config) (answers : Answers) (chandef : Chandef) (mode : Mode) :
    Reaches True w (takeChanctx cfg w answers chandef mode).1 ∧ ∀ addr, (takeChanctx cfg w answers chandef mode).2 = .ok addr →
      (takeChanctx cfg w answers chandef mode).1.refs.role addr = some ⟨.plain,none⟩ := by
  unfold takeChanctx
  split
  · rename_i ctx compat found
    have fit : ctx ∈ w.chanctxList ∧ ctx.replaceState = .unreplaced := by
      unfold findChanctx at found
      split at found
      · cases found
      · obtain ⟨_,member,taken⟩ := List.exists_of_findSome?_eq_some found
        split at taken
        · cases taken
        · rename_i open'
          split at taken
          · cases taken
          · obtain ⟨_,-,same⟩ := Option.map_eq_some_iff.mp taken
            cases same
            exact ⟨member,not_not.mp (not_or.mp open').1⟩
    have refs := refs_change w ctx.addr compat
    have listed : (changeChanctx w ctx.addr compat).Listed := by
      apply good.sound.listed.setCtx
      exact fun _ => rfl
    refine ⟨Reaches.same listed refs,?_⟩
    intro addr ok
    cases ok
    have stage : ctx.role.stage = .plain := congrArg ReplaceState.stage fit.2
    rw [refs]
    apply good.sound.linked.paired.unlinked (role_of (ctx_of_mem good.sound.listed.once fit.1))
    · rw [stage]
      decide
    · rw [stage]
      decide
  · obtain ⟨reaches,made⟩ := newChanctx_fresh True good.sound cfg answers chandef mode
    refine ⟨reaches,?_⟩
    intro addr ok
    rw [(made addr ok).1,setRole_role,if_pos rfl]

omit good in
theorem takeChanctx_vifs (cfg : Config) (w : World) (answers : Answers) (chandef : Chandef) (mode : Mode) :
    (takeChanctx cfg w answers chandef mode).1.vifs = w.vifs := by
  unfold takeChanctx
  split
  · rfl
  · rcases newChanctx_made cfg w answers chandef mode with ⟨after,err,same,vifs,_⟩ | same
    · rw [same]
      exact vifs
    · rw [same]

theorem useChannel_reaches (cfg : Config) (env : Env) (chandef : Chandef) (mode : Mode)
    (safe : env.allowed = none → ReleaseSafe cfg env w i) :
    Reaches False w (vifUseChannel cfg env w i chandef mode).1 ∧ Settled (vifUseChannel cfg env w i chandef mode).1.refs := by
  unfold vifUseChannel
  split
  · exact ⟨good.sound.refl,good.settled⟩
  rename_i allowed
  obtain ⟨released,settled⟩ := release_reaches good cfg env (safe allowed)
  have good' : (vifReleaseChannel cfg env w i).Good := ⟨released.sound good.sound,settled⟩
  obtain ⟨taken,plain⟩ := takeChanctx_reaches good' cfg env.answers chandef mode
  have good'' := good'.reach taken
  split
  · rename_i after err same
    rw [same] at taken good''
    exact ⟨released.trans taken.loose,good''.settled⟩
  · rename_i after addr same
    rw [same] at taken good'' plain
    have updated : Reaches True after (vifUpdateChandef after i chandef) :=
      Reaches.same (good''.sound.listed.congr rfl rfl) (refs_updateChandef after i chandef)
    have good₃ := good''.reach updated
    have given : (vifUpdateChandef after i chandef).refs.role addr = some ⟨.plain,none⟩ := by
      exact plain addr rfl
    have assigned : Reaches True (vifUpdateChandef after i chandef) _ := assignOrFree_reaches good₃.sound cfg env i given
    exact ⟨released.trans (taken.loose.trans (updated.loose.trans assigned.loose)),(good₃.reach assigned).settled⟩

theorem useReservedPlain_reaches (safe : ReassignSafe cfg env w i) (newCtx : Nat) :
    Reaches True w (useReservedPlain cfg env w i newCtx).1 := by
  unfold useReservedPlain
  split
  · exact good.sound.refl
  · split
    · exact useReassign_reaches good.sound good.settled safe
    · exact useAssign_reaches good.sound cfg env i

theorem useReserved_reaches (cfg : Config) (env : Env) (safe : UseSafe cfg env w i) :
    Reaches False w (vifUseReservedContext cfg env w i).1 ∧ Settled (vifUseReservedContext cfg env w i).1.refs := by
  unfold vifUseReservedContext
  split
  · exact ⟨good.sound.refl,good.settled⟩
  rename_i newCtx reserved
  split
  · exact ⟨good.sound.refl,good.settled⟩
  rename_i fresh
  obtain ⟨staying,unready⟩ := not_or.mp fresh
  obtain ⟨reassign,switch⟩ := safe newCtx reserved staying (Bool.not_eq_true _ ▸ unready)
  have ready : Reaches True w (w.setReady i) := Reaches.same (good.sound.listed.congr rfl rfl) (refs_setReady w i)
  have plain := ready.trans (useReservedPlain_reaches (good.reach ready) reassign newCtx)
  have good' := good.reach plain
  dsimp only
  split
  · exact ⟨plain.loose,good'.settled⟩
  rename_i due
  obtain ⟨ok,due⟩ : (useReservedPlain _ _ (w.setReady i) i newCtx).2 = none ∧ switchDue w i newCtx = true := by
    simpa using due
  obtain ⟨reaches,settled⟩ := switch_reaches good'.sound good'.settled (switch ok due)
  split
  · rename_i same
    rw [same] at reaches settled
    exact ⟨plain.loose.trans reaches,settled⟩
  · rename_i same
    rw [same] at reaches settled
    exact ⟨plain.loose.trans reaches,settled⟩

theorem setVif_reaches (i : Nat) (f : Vif → Vif) (conf : (f (w.vifs i)).chanctxConf = (w.vifs i).chanctxConf)
    (reserved : (f (w.vifs i)).reservedChanctx = (w.vifs i).reservedChanctx) : Reaches False w (w.setVif i f) ∧ Settled (w.setVif i f).refs := by
  have same := refs_setVif_same w i f conf reserved
  rw [same]
  exact ⟨Reaches.same (good.sound.listed.congr rfl rfl) same,good.settled⟩

theorem step_reaches (cfg : Config) (e : Event) (fine : Fine cfg w e) :
    Reaches False w (step cfg w e) ∧ Settled (step cfg w e).refs := by
  cases e with
  | useChannel env i chandef mode => exact useChannel_reaches good cfg env chandef mode fun allowed => (fine allowed).2
  | releaseChannel env => exact release_reaches good cfg env fine.2
  | reserve answers i chandef mode radarRequired =>
    have reaches : Reaches True w _ := vifReserve_reaches good.sound good.settled fine cfg answers chandef mode radarRequired
    exact ⟨reaches.loose,(good.reach reaches).settled⟩
  | unreserve i =>
    have reaches : Reaches True w (vifUnreserveChanctx w i) := unreserve_reaches good.sound i
    exact ⟨reaches.loose,(good.reach reaches).settled⟩
  | useReserved env => exact useReserved_reaches good cfg env fine
  | copyToVlans i | openVlan i | closeVlan i =>
    unfold step
    apply setVif_reaches good <;> rfl

end

section copies
variable (copied : w.Copied)
include copied

theorem World.Copied.keeps (keeps : w.Keeps w') : w'.Copied := fun i => (keeps i).copied (copied i)

theorem World.Copied.update (vifs : w'.vifs = Function.update w.vifs i vif) (own : vif.Copied) : w'.Copied := by
  intro j
  rw [vifs,Function.update_apply]
  split
  · exact own
  · exact copied j

theorem release_copied (cfg : Config) (env : Env) (cleared : Cleared w i) : (vifReleaseChannel cfg env w i).Copied := by
  have left (addr : Nat) : (leaveChanctx cfg env w i addr).Copied := copied.update (leave_vifs ..) fun conf member => .inl (cleared conf member)
  unfold vifReleaseChannel
  split
  · exact copied
  · split
    · exact (left _).keeps (reservedSwitch_keeps cfg env _)
    · exact left _

theorem useChannel_copied (cfg : Config) (env : Env) (chandef : Chandef) (mode : Mode) (cleared : env.allowed = none → Cleared w i) :
    (vifUseChannel cfg env w i chandef mode).1.Copied := by
  unfold vifUseChannel
  split
  · exact copied
  next allowed =>
  have released := release_copied copied cfg env (cleared allowed)
  have vifs := takeChanctx_vifs cfg (vifReleaseChannel cfg env w i) env.answers chandef mode
  split
  · next same =>
    rw [same] at vifs
    exact released.keeps (keeps_same vifs)
  · next after addr same =>
    rw [same] at vifs
    -- The VLANs have no context while the AP has none.
    have none_left : ∀ conf ∈ (after.vifs i).vlans, conf = none := by
      rw [show after.vifs = _ from vifs]
      exact (released i).cleared (release_free cfg env w i)
    have updated : (vifUpdateChandef after i chandef).Copied :=
      (released.keeps (keeps_same vifs)).update rfl fun conf member => .inl (none_left conf member)
    have assigned : (assignVifChanctx cfg env (vifUpdateChandef after i chandef) i (some addr)).1.Copied := by
      refine updated.update (assign_vifs ..) fun conf member => .inl (none_left conf ?_)
      rwa [vifUpdateChandef,setVif_self] at member
    dsimp only
    split
    · exact assigned.keeps (keeps_same (freeIdle_vifs ..))
    · exact assigned

theorem reserve_copied (cfg : Config) (answers : Answers) (i : Nat) (chandef : Chandef) (mode : Mode) (radarRequired : Bool) :
    (vifReserveChanctx cfg w answers i chandef mode radarRequired).1.Copied := by
  have reserved := vifReserve_reserved cfg w answers i chandef mode radarRequired
  generalize vifReserveChanctx cfg w answers i chandef mode radarRequired = out at reserved
  cases reserved with
  | refused after err vifs => exact copied.keeps (keeps_same vifs)
  | found | made => exact copied.update rfl (copied i)

theorem useReserved_copied (cfg : Config) (env : Env) (i : Nat) : (vifUseReservedContext cfg env w i).1.Copied := by
  unfold vifUseReservedContext
  split
  · exact copied
  split
  · exact copied
  next newCtx _ _ =>
  have ready : (w.setReady i).Copied := copied.update rfl (copied i)
  have plain : (useReservedPlain cfg env (w.setReady i) i newCtx).1.Copied := by
    unfold useReservedPlain
    split
    · exact ready
    · split
      · exact ready.keeps (reassign_keeps cfg env _ i)
      · exact ready.keeps (reservedAssign_keeps cfg env _ i)
  dsimp only
  split
  · exact plain
  · have switched := plain.keeps (reservedSwitch_keeps cfg env _)
    split <;> next same => rwa [same] at switched

theorem step_copied (cfg : Config) (e : Event) (fine : Fine cfg w e) : (step cfg w e).Copied := by
  cases e with
  | useChannel env _ chandef mode => exact useChannel_copied copied cfg env chandef mode fun allowed => (fine allowed).1
  | releaseChannel env => exact release_copied copied cfg env fine.1
  | reserve answers i chandef mode radarRequired => exact reserve_copied copied cfg answers i chandef mode radarRequired
  | unreserve i => exact copied.keeps (unreserve_keeps w i)
  | useReserved env i => exact useReserved_copied copied cfg env i
  | copyToVlans i clear =>
    refine copied.update rfl fun conf member => ?_
    obtain ⟨_,_,rfl⟩ := List.mem_map.mp member
    cases clear
    · exact .inr rfl
    · exact .inl rfl
  | openVlan i beacon =>
    refine copied.update rfl fun conf member => ?_
    rcases List.mem_cons.mp member with rfl | before
    · cases beacon
      · exact .inl rfl
      · exact .inr rfl
    · exact copied i conf before
  | closeVlan i n => exact copied.update rfl fun conf member => copied i conf (List.mem_of_mem_eraseIdx member)

end copies

end kept

theorem references_kept (cfg : Config) (vifs : Nat → Vif) {w : World} (path : Run (step cfg) (Fine cfg) (initial vifs) w) :
    w.Consistent ∧ ∀ e, Fine cfg w e → Relation.ReflTransGen (Move False) w.refs (step cfg w e).refs := by
  have good : w.Good := path.keeps World.Good (initial_good vifs) fun w e good fine =>
    ⟨(step_reaches good cfg e fine).1.sound good.sound,(step_reaches good cfg e fine).2⟩
  have copied : w.Copied := path.keeps World.Copied (fun _ _ member => nomatch member) fun w e copied fine => step_copied copied cfg e fine
  exact ⟨good_consistent good copied,fun e fine => (step_reaches good cfg e fine).1.moves⟩

def sampleConfig (maxNumChannels : Nat) : Config := ⟨true,true,maxNumChannels,fun c c' => if c = c' then some c else none⟩
def sampleEnv : Env := ⟨none,⟨true,none⟩,fun _ => none,fun _ => none,true,none,fun _ => none,[0,1,2]⟩
def sampleChan (chan : Nat) : Chandef := ⟨chan,0,2407 + 5 * chan,.w20,2407 + 5 * chan,0⟩
def sampleVifs : Nat → Vif := fun _ => ⟨none,sampleChan 1,none,sampleChan 1,false,false,[]⟩

def switchEvents : List Event :=
  [.useChannel sampleEnv 0 (sampleChan 1) .shared,.reserve ⟨true,none⟩ 0 (sampleChan 6) .shared false,.useReserved sampleEnv 0]

theorem references_kept_sample : (switchEvents.foldl (step (sampleConfig 1)) (initial sampleVifs)).Consistent ∧
    (switchEvents.foldl (step (sampleConfig 1)) (initial sampleVifs)).addrs = [2] ∧
    ((switchEvents.foldl (step (sampleConfig 1)) (initial sampleVifs)).vifs 0).chanctxConf = some 2 := by
  have used : Run (step (sampleConfig 1)) (Fine (sampleConfig 1)) (initial sampleVifs)
      (step (sampleConfig 1) (initial sampleVifs) (.useChannel sampleEnv 0 (sampleChan 1) .shared)) := by
    refine Run.start.next ?_
    intro _
    refine ⟨fun _ member => (nomatch member),?_,?_⟩
    · intro _ newCtx conf
      cases conf
    · intro oldCtx conf
      cases conf
  have reserved : Run (step (sampleConfig 1)) (Fine (sampleConfig 1)) (initial sampleVifs)
      (step (sampleConfig 1) (step (sampleConfig 1) (initial sampleVifs) (.useChannel sampleEnv 0 (sampleChan 1) .shared))
        (.reserve ⟨true,none⟩ 0 (sampleChan 6) .shared false)) := used.next rfl
  have switched : Run (step (sampleConfig 1)) (Fine (sampleConfig 1)) (initial sampleVifs)
      (switchEvents.foldl (step (sampleConfig 1)) (initial sampleVifs)) := by
    refine Run.next (e := .useReserved sampleEnv 0) reserved ?_
    intro newCtx own _ _
    cases own
    refine ⟨?_,?_⟩
    · intro _ _ conf own _ fit
      cases own
      exact absurd fit (by decide)
    · intro _ _ n _ _ j _ _ conf _ own
      cases j with
      | zero =>
        cases own
        rfl
      | succ j => cases conf
  exact ⟨(references_kept (sampleConfig 1) sampleVifs switched).1,by decide,by decide⟩

-- Interface 0 reserves a new context for the one it shares with 1, and 1 that of interface 2; the switch of
-- 0 does not wait for it.
def strandEvents : List Event :=
  [.useChannel sampleEnv 0 (sampleChan 1) .shared,.useChannel sampleEnv 1 (sampleChan 1) .shared,
    .useChannel sampleEnv 2 (sampleChan 6) .shared,.reserve ⟨true,none⟩ 0 (sampleChan 11) .shared false,
    .reserve ⟨true,none⟩ 1 (sampleChan 6) .shared false,.useReserved sampleEnv 0]

theorem context_freed_in_use : ¬ (strandEvents.foldl (step (sampleConfig 2)) (initial sampleVifs)).Consistent := by
  intro consistent
  have conf : ((strandEvents.foldl (step (sampleConfig 2)) (initial sampleVifs)).vifs 1).chanctxConf = some 1 := by decide
  have addrs : (strandEvents.foldl (step (sampleConfig 2)) (initial sampleVifs)).addrs = [3,2] := by decide
  have inside := (consistent.live 1 (.inl ⟨1,.inl conf⟩)).1
  rw [addrs] at inside
  revert inside
  decide

end Mac80211.Chan

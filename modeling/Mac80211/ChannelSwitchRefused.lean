import Mac80211.ChannelSwitch

namespace Mac80211.ChannelSwitch
open Chan

def Kind.kept (active : Bool) : Kind → Kind → Prop
  | .ap before,.ap after =>
    after.beacon = before.beacon ∧ after.probeResp = before.probeResp ∧ after.nextBeacon = if active then before.nextBeacon else none
  | .adhoc before,.adhoc after => after = before
  | .mesh before,.mesh after => after.csaRole = before.csaRole ∧ after.preValue = before.preValue ∧ after.beacon = before.beacon
  | .other,.other => True
  | _,_ => False

structure NoTrace (before after : World) (i : Nat) : Prop where
  csaActive : after.sdata.csaActive = before.sdata.csaActive
  reserved : (after.chan.vifs i).reservedChanctx = if before.sdata.csaActive then (before.chan.vifs i).reservedChanctx else none
  kept : before.sdata.u.kept before.sdata.csaActive after.sdata.u
  freed : ∀ addr ∈ after.chan.heap.allocated, addr ∈ before.chan.heap.allocated

def Kind.leftover : Kind → Bool
  | .ap u => u.nextBeacon.isSome
  | _ => false

def World.clean (w : World) (i : Nat) : Prop := (w.chan.vifs i).reservedChanctx = none ∧ w.sdata.u.leftover = false

def untouched (cfg : Config) (answers : Answers) (w : World) (i : Nat) (params : Params) : Prop :=
  w.sdata.csaActive = true ∨
    match refusal answers w i params with
    | .error _ => w.clean i
    | .ok ctx =>
      if (vifReserveChanctx cfg w.chan answers.chanctx i params.chandef ctx.mode params.radarRequired).2 ≠ none then w.clean i
      else if answers.combinations ≠ none then w.sdata.u.leftover = false
      else
        match w.sdata.u with
        | .ap _ => answers.dup = false
        | .mesh _ => params.chandef.width ≠ (w.chan.vifs i).chandef.width ∨ (w.chan.vifs i).chandef.band ≠ params.chandef.band
        | _ => True

section refused
variable {maxCsaCounters : Nat} {answers : Answers} {w : World} {i : Nat} {params : Params}

theorem kept_self (u : Kind) : u.kept true u := by
  cases u <;> unfold Kind.kept <;> simp

theorem kept_clean (u : Kind) : u.kept false u ↔ u.leftover = false := by
  cases u <;> unfold Kind.kept Kind.leftover <;> simp

theorem probe_next (answers : Answers) (heap : Heap) (u : Ap) (resp : Option (List Nat)) (csa : Csa) : (setProbeResp answers heap u resp csa).2.1.nextBeacon = u.nextBeacon := by
  unfold setProbeResp
  split
  · rfl
  · split <;> rfl

theorem assign_next (answers : Answers) (heap : Heap) (u : Ap) (data : BeaconData) (csa : Csa) : (assignBeacon answers heap u data csa).2.1.nextBeacon = u.nextBeacon := by
  unfold assignBeacon
  split
  · rfl
  · split
    · rfl
    · have next := probe_next answers heap.alloc u data.probeResp csa
      split
      · rename_i same
        rwa [same] at next
      · rename_i same
        rwa [same] at next

theorem ap_refused (refused : (setCsaBeaconAp maxCsaCounters answers heap u params).2.2 = .error err) :
    (answers.dup = false ∧ (setCsaBeaconAp maxCsaCounters answers heap u params).1 = heap ∧
        (setCsaBeaconAp maxCsaCounters answers heap u params).2.1 = {u with nextBeacon := none}) ∨
      answers.dup = true ∧ (setCsaBeaconAp maxCsaCounters answers heap u params).2.1.nextBeacon ≠ none := by
  unfold setCsaBeaconAp at *
  cases dup : answers.dup with
  | false => exact .inl ⟨rfl,rfl,rfl⟩
  | true =>
    right
    refine ⟨rfl,?_⟩
    rw [dup] at refused
    rw [if_neg (show ¬(!true) = true from Bool.false_ne_true)] at refused ⊢
    dsimp only at refused ⊢
    split at refused
    · cases refused
    rename_i many
    split at refused
    · rename_i several
      rw [if_neg many,if_pos several]
      exact Option.some_ne_none _
    rename_i several
    rw [if_neg many,if_neg several]
    have next := assign_next answers heap.alloc {u with nextBeacon := some (beaconDup heap.next params.beaconAfter)}
      params.beaconCsa ⟨params.count,params.counterOffsetsBeacon,params.counterOffsetsPresp⟩
    split
    · rename_i same
      rw [same] at next
      rw [next]
      exact Option.some_ne_none _
    · rename_i same
      rw [same] at refused
      cases refused

theorem ibss_refused (refused : (setCsaBeaconIbss answers heap u params).2.2 = .error err) :
    (setCsaBeaconIbss answers heap u params).1 = heap ∧ (setCsaBeaconIbss answers heap u params).2.1 = u := by
  have csa : ∀ err, (ibssCsaBeacon answers heap u).2.2 = .error err → (ibssCsaBeacon answers heap u).1 = heap ∧ (ibssCsaBeacon answers heap u).2.1 = u := by
    intro err refused
    unfold ibssCsaBeacon at *
    split at refused
    · rename_i bss
      rw [if_pos bss]
      exact ⟨rfl,rfl⟩
    · rename_i bss
      split at refused
      · rename_i presp
        rw [if_neg bss,if_pos presp]
        exact ⟨rfl,rfl⟩
      · cases refused
  unfold setCsaBeaconIbss at *
  split_ifs at refused ⊢
  all_goals first | exact ⟨rfl,rfl⟩ | exact csa err refused

theorem bumped (p : BitVec 16) : (if p = 0 then 1 else p + 1) ≠ p := by
  split
  · rename_i zero
    rw [zero]
    decide
  · intro same
    have sum : (p.toNat + 1) % 2 ^ 16 = p.toNat := (BitVec.toNat_add p 1).symm.trans (congrArg BitVec.toNat same)
    omega

theorem meshCsa_keeps (answers : Answers) (heap : Heap) (u : Mesh) : (meshCsaBeacon answers heap u).2.1.preValue = u.preValue := by
  unfold meshCsaBeacon
  split
  · rfl
  · split <;> rfl

theorem mesh_refused (refused : (setCsaBeaconMesh answers heap u params chandef).2.2 = .error err) :
    ((params.chandef.width ≠ chandef.width ∨ chandef.band ≠ params.chandef.band) ∧
        (setCsaBeaconMesh answers heap u params chandef).1 = heap ∧ (setCsaBeaconMesh answers heap u params chandef).2.1 = u) ∨
      ¬(params.chandef.width ≠ chandef.width ∨ chandef.band ≠ params.chandef.band) ∧
        ¬((setCsaBeaconMesh answers heap u params chandef).2.1.csaRole = u.csaRole ∧
          (setCsaBeaconMesh answers heap u params chandef).2.1.preValue = u.preValue) := by
  unfold setCsaBeaconMesh at *
  split at refused
  · rename_i width
    rw [if_pos width]
    exact .inl ⟨.inl width,rfl,rfl⟩
  rename_i width
  split at refused
  · rename_i band
    rw [if_neg width,if_pos band]
    exact .inl ⟨.inr band,rfl,rfl⟩
  rename_i band
  rw [if_neg width,if_neg band]
  refine .inr ⟨fun early => early.elim width band,?_⟩
  dsimp only at *
  split at refused
  · rename_i several
    rw [if_pos several]
    generalize begun : (if u.csaRole = .none then ({u with csaRole := .init,preValue := if u.preValue = 0 then 1 else u.preValue + 1} : Mesh) else u) = v at *
    have keeps := meshCsa_keeps answers heap v
    generalize meshCsaBeacon answers heap v = out at keeps refused ⊢
    obtain ⟨_,_,e⟩ := out
    cases e with
    | ok => cases refused
    | error =>
      rintro ⟨role,pre⟩
      rw [if_pos role.symm] at begun
      rw [keeps,← begun] at pre
      exact bumped u.preValue pre
  · cases refused

theorem refusal_active (active : w.sdata.csaActive = true) : ∃ err, refusal answers w i params = .error err := by
  unfold refusal
  split
  · exact ⟨_,rfl⟩
  · split
    · exact ⟨_,rfl⟩
    · split <;> exact ⟨_,rfl⟩

theorem refusal_inactive (passed : refusal answers w i params = .ok ctx) : w.sdata.csaActive = false := by
  by_contra active
  obtain ⟨_,refused⟩ := @refusal_active answers w i params (Bool.not_eq_false _ ▸ active)
  cases passed.symm.trans refused

theorem noTrace_clean (active : w.sdata.csaActive = false) (sdata : after.sdata = w.sdata) (vifs : after.chan.vifs = w.chan.vifs)
    (freed : ∀ addr ∈ after.chan.heap.allocated, addr ∈ w.chan.heap.allocated) : NoTrace w after i ↔ w.clean i := by
  have kept : w.sdata.u.kept false w.sdata.u ↔ _ := kept_clean w.sdata.u
  constructor
  · intro trace
    have reserved := trace.reserved
    have kept' := trace.kept
    rw [active,vifs,if_neg Bool.false_ne_true] at reserved
    rw [active,sdata] at kept'
    exact ⟨reserved,kept.mp kept'⟩
  · rintro ⟨reserved,left⟩
    refine ⟨congrArg Sdata.csaActive sdata,?_,?_,freed⟩
    · rw [active,vifs,if_neg Bool.false_ne_true]
      exact reserved
    · rw [active,sdata]
      exact kept.mpr left

theorem refused_untouched_iff (cfg : Config) (maxCsaCounters : Nat) (answers : Answers) (w : World) (i : Nat) (params : Params) (err : Errno)
    (refused : (channelSwitch cfg maxCsaCounters answers w i params).2 = .error err) :
    NoTrace w (channelSwitch cfg maxCsaCounters answers w i params).1 i ↔ untouched cfg answers w i params := by
  unfold untouched
  unfold channelSwitch at refused ⊢
  cases passed : refusal answers w i params with
  | error e =>
    cases active : w.sdata.csaActive with
    | true =>
      refine iff_of_true ⟨rfl,?_,?_,fun _ => id⟩ (.inl rfl)
      · rw [active,if_pos rfl]
      · rw [active]
        exact kept_self _
    | false =>
      rw [noTrace_clean active rfl rfl fun _ => id]
      exact (or_iff_right Bool.false_ne_true).symm
  | ok ctx =>
    have active := refusal_inactive passed
    rw [passed] at refused
    dsimp only at refused ⊢
    rw [active,or_iff_right Bool.false_ne_true]
    have reserving := vifReserve_reserved cfg w.chan answers.chanctx i params.chandef ctx.mode params.radarRequired
    generalize vifReserveChanctx cfg w.chan answers.chanctx i params.chandef ctx.mode params.radarRequired = out at reserving refused ⊢
    obtain ⟨chan,e⟩ := out
    cases e with
    | some e =>
      cases reserving with
      | refused _ _ vifs heap =>
        rw [if_pos (Option.some_ne_none e)]
        exact noTrace_clean active rfl vifs fun addr member => heap ▸ member
    | none =>
      rw [if_neg (not_not.mpr rfl)]
      have given : ∀ u : Kind, NoTrace w {w with chan := vifUnreserveChanctx chan i,sdata := {w.sdata with u := u}} i ↔ w.sdata.u.kept false u := by
        intro u
        constructor
        · intro trace
          have kept := trace.kept
          rwa [active] at kept
        · intro kept
          refine ⟨rfl,?_,?_,unreserve_heap reserving⟩
          · rw [active,if_neg Bool.false_ne_true]
            exact unreserve_vif chan i
          · rw [active]
            exact kept
      have traced : ∀ after : World, NoTrace w after i → w.sdata.u.kept false after.sdata.u := by
        intro _ trace
        have kept := trace.kept
        rwa [active] at kept
      cases combinations : answers.combinations with
      | some e =>
        rw [if_pos (Option.some_ne_none e)]
        exact (given w.sdata.u).trans (kept_clean _)
      | none =>
        rw [if_neg (not_not.mpr rfl)]
        rw [combinations] at refused
        dsimp only at refused ⊢
        unfold setCsaBeacon at refused ⊢
        cases kind : w.sdata.u with
        | ap u =>
          rw [kind] at given traced refused
          have facts := fun err => @ap_refused maxCsaCounters answers params chan.heap u err
          dsimp only at refused ⊢
          generalize setCsaBeaconAp maxCsaCounters answers chan.heap u params = out at facts refused ⊢
          obtain ⟨heap,u',e⟩ := out
          cases e with
          | ok => cases refused
          | error e =>
            rcases facts e rfl with ⟨early,same,next⟩ | ⟨late,next⟩
            · cases same
              cases next
              exact iff_of_true ((given _).mpr ⟨rfl,rfl,rfl⟩) early
            · rw [late]
              refine iff_of_false (fun trace => next ?_) Bool.noConfusion
              exact (traced _ trace).2.2
        | adhoc u =>
          rw [kind] at given refused
          have facts := fun err => @ibss_refused answers params chan.heap u err
          dsimp only at refused ⊢
          generalize setCsaBeaconIbss answers chan.heap u params = out at facts refused ⊢
          obtain ⟨heap,u',e⟩ := out
          cases e with
          | ok => cases refused
          | error e =>
            obtain ⟨same,next⟩ := facts e rfl
            cases same
            cases next
            exact iff_of_true ((given _).mpr rfl) trivial
        | mesh u =>
          rw [kind] at given traced refused
          have facts := fun err => @mesh_refused answers params chan.heap u (chan.vifs i).chandef err
          have chandef : (chan.vifs i).chandef = (w.chan.vifs i).chandef := reserved_chandef reserving
          dsimp only at refused ⊢
          rw [chandef] at facts refused ⊢
          generalize setCsaBeaconMesh answers chan.heap u params (w.chan.vifs i).chandef = out at facts refused ⊢
          obtain ⟨heap,u',e⟩ := out
          cases e with
          | ok => cases refused
          | error e =>
            rcases facts e rfl with ⟨early,same,next⟩ | ⟨late,changes⟩
            · cases same
              cases next
              exact iff_of_true ((given _).mpr ⟨rfl,rfl,rfl⟩) early
            · refine iff_of_false (fun trace => changes ?_) late
              obtain ⟨role,pre,_⟩ := traced _ trace
              exact ⟨role,pre⟩
        | other =>
          have trace : NoTrace w {w with chan := vifUnreserveChanctx chan i} i := (given w.sdata.u).mpr ((kept_clean _).mpr (by rw [kind]; rfl))
          exact iff_of_true trace trivial

end refused

def channel (chan : Nat) : Chandef := ⟨chan,0,2407 + 5 * chan,.w20,2407 + 5 * chan,0⟩

def noBeacon : BeaconData := ⟨none,none,none,none,none,none⟩

-- The counter in the tail of the announcing beacon is the count.
def someParams : Params := ⟨channel 6,3,false,false,noBeacon,{noBeacon with head := some [1],tail := some [3]},[0],[]⟩

def allFine : Answers := ⟨none,⟨true,none⟩,none,true,true,true,true,true,true,true⟩

def onAir (u : Kind) : World where
  chan := ⟨[⟨7,channel 1,.shared,.unreplaced,none,[0],[]⟩],fun _ => ⟨some 7,channel 1,none,channel 1,false,false,[]⟩,⟨[20,7],21⟩⟩
  sdata := ⟨u,false,false,channel 1,false⟩
  busy := false

def oneChannel : Config := ⟨true,true,1,fun a b => if a = b then some a else none⟩

def beaconing : World := onAir (.ap ⟨some ⟨20,[1],[],0,[]⟩,none,none⟩)

theorem refused_untouched_done :
    NoTrace beaconing (channelSwitch oneChannel 2 {allFine with dup := false} beaconing 0 someParams).1 0 ↔
      untouched oneChannel {allFine with dup := false} beaconing 0 someParams :=
  refused_untouched_iff oneChannel 2 {allFine with dup := false} beaconing 0 someParams .noMem (by rfl)

-- The block of the next beacon is freed, and the access point goes on pointing to it.
theorem refused_keeps_freed :
    let out := channelSwitch oneChannel 2 {allFine with beacon := false} beaconing 0 someParams
    out.2 = .error .noMem ∧ out.1.sdata.u = .ap ⟨some ⟨20,[1],[],0,[]⟩,none,some ⟨22,noBeacon⟩⟩ ∧
      22 ∉ out.1.chan.heap.allocated ∧ ¬NoTrace beaconing out.1 0 := by
  refine ⟨by rfl,by rfl,by decide,fun trace => ?_⟩
  exact Option.some_ne_none _ trace.kept.2.2

end Mac80211.ChannelSwitch

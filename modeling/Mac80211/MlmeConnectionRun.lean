import Mac80211.MlmeConnection
import Mac80211.Transitions

namespace Mac80211.Mlme
open Chan (Chandef)
open Transitions (Run)

section events
variable {cfg : Cfg80211}

theorem consistent_touched (consistent : Consistent s) (mem : after.mem = s.mem) (chanctx : after.link.chanctx = s.link.chanctx)
    (auth : after.authData.map AuthData.addr = s.authData.map AuthData.addr)
    (assoc : after.assocData.map AssocData.addr = s.assocData.map AssocData.addr) (associated : after.associated = s.associated) :
    Consistent after := by
  have authSome : after.authData.isSome = s.authData.isSome := by
    rw [← Option.isSome_map (f := AuthData.addr),auth,Option.isSome_map]
  have assocSome : after.assocData.isSome = s.assocData.isSome := by
    rw [← Option.isSome_map (f := AssocData.addr),assoc,Option.isSome_map]
  refine ⟨?_,?_,?_⟩
  · unfold owned
    rw [chanctx,authSome,assocSome,associated]
    exact consistent.channel
  · obtain free | free := consistent.apart
    · rw [free] at auth
      exact .inl (Option.map_eq_none_iff.mp auth)
    · rw [free] at assoc
      exact .inr (Option.map_eq_none_iff.mp assoc)
  · unfold held
    rw [mem,auth,assoc]
    exact consistent.memory

theorem rxMgmtAuth_consistent (f : AuthFrame) (consistent : Consistent s) : Consistent (rxMgmtAuth f s) := by
  unfold rxMgmtAuth
  cases data : s.authData with
  | none => exact consistent
  | some =>
    dsimp only
    split_ifs
    · exact consistent
    · exact consistent
    · exact destroyAuthData_consistent consistent
    · exact consistent_touched consistent rfl rfl (by rw [data]; rfl) rfl rfl
    · exact consistent
    · exact consistent_touched consistent rfl rfl (by rw [data]; rfl) rfl rfl

theorem rxMgmtProbeResp_consistent (len bssid : Nat) (own proberesp : Bool) (consistent : Consistent s) :
    Consistent (rxMgmtProbeResp len bssid own proberesp s) := by
  unfold rxMgmtProbeResp
  cases data : s.authData with
  | none => exact consistent
  | some =>
    dsimp only
    split_ifs
    · exact consistent
    · exact consistent_touched consistent rfl rfl (by rw [data]; rfl) rfl rfl

theorem rxMgmtDisconnect_consistent (len bssid : Nat) (consistent : Consistent s) : Consistent (rxMgmtDisconnect len bssid s) := by
  unfold rxMgmtDisconnect
  split_ifs
  · exact consistent
  · exact setDisassoc_consistent consistent

theorem rxMgmtAssocResp_consistent (f : AssocFrame) (consistent : Consistent s) : Consistent (rxMgmtAssocResp f s) := by
  unfold rxMgmtAssocResp
  cases data : s.assocData with
  | none => exact consistent
  | some =>
    dsimp only
    split_ifs
    · exact consistent
    · exact consistent_touched consistent rfl rfl rfl (by rw [data]; rfl) rfl
    · exact destroyAssocData_consistent consistent
    · unfold assocSuccess
      split_ifs
      · exact destroyAssocData_consistent consistent
      · exact destroyAssocData_consistent (consistent_touched consistent rfl rfl rfl rfl rfl)
      · refine ⟨fun _ => ?_,.inr (destroyAssocData_assocData true _),?_⟩
        · unfold owned
          rw [destroyAssocData_associated,Option.isSome_some,Bool.or_true]
        · have memory := consistent.memory
          exact destroyAssocData_memory true (by simpa [held] using memory)

theorem workStatus_consistent (a : WorkAnswers) (consistent : Consistent s) : Consistent (workStatus a s) := by
  unfold workStatus
  split
  · rename_i auth data
    exact consistent_touched consistent rfl rfl (by rw [data]; rfl) rfl rfl
  · rename_i own data
    exact consistent_touched consistent rfl rfl rfl (by rw [data]; rfl) rfl
  · exact consistent

theorem workAuth_consistent (a : WorkAnswers) (consistent : Consistent s) : Consistent (workAuth a s) := by
  unfold workAuth
  cases data : s.authData with
  | none => exact consistent
  | some =>
    dsimp only
    obtain ⟨_,after,addr⟩ := probeAuth_keeps a.proberesp a.ssid data
    have tried : Consistent (probeAuth a.proberesp a.ssid s).1 := by
      rw [after]
      exact consistent_touched consistent rfl rfl (by rw [data]; exact congrArg some addr) rfl rfl
    generalize probeAuth a.proberesp a.ssid s = out at tried
    obtain ⟨_,_ | _⟩ := out
    · split_ifs
      · exact consistent
      · exact destroyAuthData_consistent consistent
      · exact tried
    · split_ifs
      · exact consistent
      · exact destroyAuthData_consistent consistent
      · exact destroyAuthData_consistent tried

theorem doAssoc_consistent (consistent : Consistent s) : Consistent (doAssoc s).1 := by
  unfold doAssoc
  cases data : s.assocData with
  | none => exact consistent
  | some =>
    dsimp only
    split_ifs <;> exact consistent_touched consistent rfl rfl rfl (by rw [data]; rfl) rfl

theorem workAssoc_consistent (a : WorkAnswers) (consistent : Consistent s) : Consistent (workAssoc a s) := by
  unfold workAssoc
  cases data : s.assocData with
  | none => exact consistent
  | some =>
    dsimp only
    have tried := doAssoc_consistent consistent
    generalize doAssoc s = out at tried
    obtain ⟨_,_ | _⟩ := out
    · split_ifs
      · exact consistent
      · exact destroyAssocData_consistent consistent
      · exact tried
    · split_ifs
      · exact consistent
      · exact destroyAssocData_consistent consistent
      · exact destroyAssocData_consistent tried

theorem staWork_consistent (a : WorkAnswers) (consistent : Consistent s) : Consistent (staWork a s) := by
  have works := workAssoc_consistent a (workAuth_consistent a (workStatus_consistent a consistent))
  unfold staWork
  split_ifs
  · exact setDisassoc_consistent works
  · exact works

theorem vifChangeBandwidth_chanctx (ctx : Chanctx) (chandef : Chandef) (l : Link) :
    (vifChangeBandwidth cfg ctx chandef l).1.chanctx = l.chanctx := by
  unfold vifChangeBandwidth
  split_ifs
  · rfl
  · rfl
  · rfl
  · rfl
  · cases cfg.compatible ctx.chandef chandef with
    | none => rfl
    | some =>
      dsimp only
      cases ctx.replaceState with
      | unreplaced =>
        split_ifs <;> rfl
      | willBeReplaced => rfl
      | replacesOther => rfl

-- The bandwidth may change or be given up; the context itself stays.
theorem configBw_chanctx (ctx : Chanctx) (sta : Option Sta) (htCap : Option HtCap) (htOper : Option HtOperation)
    (vhtOper : Option VhtOperation) (l : Link) : (configBw cfg sband ctx sta htCap htOper vhtOper l).1.chanctx = l.chanctx := by
  unfold configBw
  cases htOper with
  | none => rfl
  | some oper =>
    dsimp only
    by_cases disabled : l.flags.disableHt = true
    · rw [if_pos disabled]
    rw [if_neg disabled]
    cases sta with
    | none => rfl
    | some =>
      generalize trackedChandef cfg sband htCap oper vhtOper l = tracked
      obtain ⟨chandef,_⟩ := tracked
      split_ifs
      · rfl
      · rfl
      · cases rxBandwidth chandef.width with
        | none => rfl
        | some =>
          have kept := @vifChangeBandwidth_chanctx cfg ctx chandef {l with htOperationMode := oper.operationMode}
          generalize vifChangeBandwidth cfg ctx chandef {l with htOperationMode := oper.operationMode} = out at kept
          obtain ⟨_,_ | _⟩ := out
          · exact kept
          · exact kept

theorem rxMgmtBeacon_consistent (b : Beacon) (consistent : Consistent s) : Consistent (rxMgmtBeacon cfg sband b s) := by
  unfold rxMgmtBeacon
  by_cases off : (!s.link.chanctx || !b.onChannel) = true
  · rw [if_pos off]
    exact consistent
  rw [if_neg off]
  cases waiting : s.assocData.filter fun data => data.needBeacon && data.bssid = b.bssid with
  | some data =>
    have own : s.assocData = some data := (Option.filter_eq_some_iff.mp waiting).1
    exact consistent_touched consistent rfl rfl rfl (by rw [own]; rfl) rfl
  | none =>
    dsimp only
    split_ifs
    · exact consistent
    · exact consistent
    all_goals
      have kept := @configBw_chanctx cfg sband b.ctx (s.stas.find? fun sta => sta.addr = b.bssid) b.htCap b.htOper
        b.vhtOper s.link
    · exact setDisassoc_consistent (consistent_touched consistent rfl kept rfl rfl rfl)
    · exact consistent_touched consistent rfl kept rfl rfl rfl

theorem mgdDeauth_consistent (bssid : Nat) (consistent : Consistent s) : Consistent (mgdDeauth bssid s).1 := by
  unfold mgdDeauth
  split_ifs
  · exact destroyAuthData_consistent consistent
  · exact setDisassoc_consistent consistent
  · exact consistent

theorem mgdStop_consistent (consistent : Consistent s) : Consistent (mgdStop s) :=
  destroyAuthData_consistent (destroyAssocData_consistent consistent)

theorem mgdQuiesce_consistent (wowlan : Bool) (consistent : Consistent s) : Consistent (mgdQuiesce wowlan s) := by
  have stopped := mgdStop_consistent consistent
  unfold mgdQuiesce
  dsimp only
  cases (mgdStop s).associated with
  | none => exact stopped
  | some bssid =>
    cases wowlan with
    | true => exact stopped
    | false => exact mgdDeauth_consistent bssid stopped

theorem serve_consistent (e : Event) (consistent : Consistent s) (fine : clean cfg sband hw s e = true) :
    Consistent (serve cfg sband hw s e).1 ∧ ((serve cfg sband hw s e).2.isSome = true → Undone s (serve cfg sband hw s e).1) := by
  cases e with
  | auth req a => exact mgdAuth_sound req a consistent fine
  | assoc req a => exact mgdAssoc_sound req a consistent fine
  | deauth bssid =>
    refine ⟨mgdDeauth_consistent bssid consistent,?_⟩
    unfold serve
    dsimp only
    unfold mgdDeauth
    split_ifs
    · exact nofun
    · exact nofun
    · exact fun _ => undone_refl s
  | disassoc =>
    unfold serve
    dsimp only
    unfold mgdDisassoc
    split_ifs
    · exact ⟨consistent,fun _ => undone_refl s⟩
    · exact ⟨setDisassoc_consistent consistent,nofun⟩
  | rxProbeResp len bssid own proberesp => exact ⟨rxMgmtProbeResp_consistent len bssid own proberesp consistent,nofun⟩
  | rxAuth f => exact ⟨rxMgmtAuth_consistent f consistent,nofun⟩
  | rxDisconnect len bssid => exact ⟨rxMgmtDisconnect_consistent len bssid consistent,nofun⟩
  | rxAssocResp f => exact ⟨rxMgmtAssocResp_consistent f consistent,nofun⟩
  | rxBeacon b => exact ⟨rxMgmtBeacon_consistent b consistent,nofun⟩
  | work a => exact ⟨staWork_consistent a consistent,nofun⟩
  | disconnect => exact ⟨setDisassoc_consistent consistent,nofun⟩
  | quiesce wowlan => exact ⟨mgdQuiesce_consistent wowlan consistent,nofun⟩
  | stop => exact ⟨consistent_touched (mgdStop_consistent consistent) rfl rfl rfl rfl rfl,nofun⟩

def fresh (link : Link) : Sdata where
  mem := ⟨[],[]⟩
  authData := none
  assocData := none
  associated := none
  bssid := none
  stas := []
  link := {link with chanctx := false}
  haveBeacon := false

theorem fresh_consistent (link : Link) : Consistent (fresh link) := ⟨nofun,.inl rfl,Blocks.empty_accounted⟩

theorem connection_state (link : Link) (path : Run (step cfg sband hw) (fun s e => clean cfg sband hw s e) (fresh link) s) :
    Consistent s ∧ (∀ addr < s.mem.next, (held s).count addr + s.mem.freed.count addr = 1) ∧
    ∀ e, clean cfg sband hw s e = true → (serve cfg sband hw s e).2.isSome = true → Undone s (step cfg sband hw s e) := by
  have consistent := path.keeps Consistent (fresh_consistent link) fun _ e holds fine => (serve_consistent e holds fine).1
  refine ⟨consistent,fun addr given => consistent.memory.once given,?_⟩
  intro e fine
  exact (serve_consistent e consistent fine).2

end events

def wide : Cfg80211 where
  channelToFrequency chan _ := 5000 + 5 * chan
  valid _ := true
  usable _ _ := true
  compatible _ wider := some wider

def radio : Hw := ⟨4,true,false⟩
def band5GHz : Sband := ⟨true,true,true⟩
def channel36 : Channel := ⟨36,1,5180⟩

def unused : Link := ⟨noFlags,⟨false,false⟩,noHtChandef channel36,false,0⟩

def plainAp : Bss := ⟨7,channel36,true,true,true,none,none,false,none⟩

def authRequest (bss : Bss) : AuthRequest := ⟨bss,some .openSystem,0⟩
def assocRequest (bss : Bss) : AssocRequest := ⟨bss,false,false,false,⟨false,false⟩,true,true⟩
def willing : AuthAnswers := ⟨true,true,fun _ => .ok,none⟩

def joining : List Event :=
  [.auth (authRequest plainAp) willing,.rxAuth ⟨30,7,some .openSystem,2,0,false⟩,.assoc (assocRequest plainAp) willing,
    .rxAssocResp ⟨30,7,0,false,true,true,true,.bw20,.bw20⟩]

theorem joining_run : Run (step wide band5GHz radio) (fun s e => clean wide band5GHz radio s e) (fresh unused)
    (joining.foldl (step wide band5GHz radio) (fresh unused)) :=
  (((Run.start.next (e := joining[0]) (by decide +kernel)).next (e := joining[1]) (by decide +kernel)).next
    (e := joining[2]) (by decide +kernel)).next (e := joining[3]) (by decide +kernel)

theorem connection_state_sample : (joining.foldl (step wide band5GHz radio) (fresh unused)).associated = some 7 ∧
    Consistent (joining.foldl (step wide band5GHz radio) (fresh unused)) :=
  ⟨by decide +kernel,(connection_state unused joining_run).1⟩

def failedEntry : Event := .auth (authRequest plainAp) ⟨true,true,fun _ => .ok,some (.driver 5)⟩
def unprobed : Event := .auth (authRequest {plainAp with ssid := false,proberesp := false}) willing

theorem failed_auth_keeps_channel :
    ¬(∀ s, Run (step wide band5GHz radio) (fun _ _ => True) (fresh unused) s → Consistent s) ∧
    (serve wide band5GHz radio (fresh unused) failedEntry).2 = some (.driver 5) ∧
    (step wide band5GHz radio (fresh unused) failedEntry).link.chanctx = true ∧
    (serve wide band5GHz radio (fresh unused) unprobed).2 = some .inval ∧
    (step wide band5GHz radio (fresh unused) unprobed).link.chanctx = true := by
  have kept : (step wide band5GHz radio (fresh unused) failedEntry).link.chanctx = true := by decide +kernel
  have alone : owned (step wide band5GHz radio (fresh unused) failedEntry) = false := by decide +kernel
  refine ⟨?_,by decide +kernel,kept,by decide +kernel,by decide +kernel⟩
  intro always
  have consistent := always _ (Run.start.next (e := failedEntry) trivial)
  exact Bool.false_ne_true (alone.symm.trans (consistent.channel kept))

end Mac80211.Mlme

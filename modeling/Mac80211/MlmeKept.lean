import Mac80211.MlmeConnectionRun

namespace Mac80211.Mlme
open Chan (Chandef)
open Transitions (Run)

structure Apart (s after : Sdata) : Prop where
  link : after.link = s.link
  stas : after.stas = s.stas
  bssid : after.bssid = s.bssid
  associated : after.associated = s.associated
  assocData : after.assocData = s.assocData

-- A new request that gets through ends the time that authData stands for.
def between (cfg : Cfg80211) (sband : Sband) (hw : Hw) (s : Sdata) : Event → Bool
  | .auth req a => (mgdAuth cfg sband hw req a s).2.isSome
  | _ => true

section events
variable {cfg : Cfg80211} {sband : Sband} {hw : Hw}

theorem apart_refl (s : Sdata) : Apart s s := ⟨rfl,rfl,rfl,rfl,rfl⟩

theorem Apart.trans (first : Apart s s') (second : Apart s' after) : Apart s after :=
  ⟨second.link.trans first.link,second.stas.trans first.stas,second.bssid.trans first.bssid,second.associated.trans first.associated,
    second.assocData.trans first.assocData⟩

theorem setDisassoc_free (alone : s.associated = none) : setDisassoc s = s := by
  unfold setDisassoc
  rw [if_pos (by simp [alone])]

theorem mgdAuth_failed (req : AuthRequest) (a : AuthAnswers) (failed : (mgdAuth cfg sband hw req a s).2.isSome = true) :
    (mgdAuth cfg sband hw req a s).1.authData = none ∨
    Apart s (mgdAuth cfg sband hw req a s).1 ∧ (mgdAuth cfg sband hw req a s).1.authData = s.authData := by
  unfold mgdAuth at *
  cases known : req.alg with
  | none => exact .inr ⟨apart_refl s,rfl⟩
  | some alg =>
    rw [known] at failed
    dsimp only at *
    split_ifs at failed ⊢
    · exact .inr ⟨apart_refl s,rfl⟩
    · exact .inr ⟨apart_refl s,rfl⟩
    · exact .inr ⟨⟨rfl,rfl,rfl,rfl,rfl⟩,rfl⟩
    · generalize prepConnection cfg sband a.setup req.bss false (startAuth s.mem.next req alg {s with mem := s.mem.alloc .auth}) = out at *
      obtain ⟨prepared,_ | _⟩ := out
      · dsimp only at *
        generalize probeAuth req.bss.proberesp req.bss.ssid prepared = out at *
        obtain ⟨_,_ | _⟩ := out
        · cases failed
        · exact .inl rfl
      · exact .inl rfl

theorem mgdAssoc_left (req : AssocRequest) (a : AuthAnswers) : (mgdAssoc cfg sband hw req a s).1.authData = none ∨
    (mgdAssoc cfg sband hw req a s).1.authData = s.authData ∧ (s.associated = none → Apart s (mgdAssoc cfg sband hw req a s).1) := by
  unfold mgdAssoc
  dsimp only
  split_ifs
  · exact .inr ⟨rfl,fun _ => apart_refl s⟩
  · exact .inr ⟨rfl,fun _ => ⟨rfl,rfl,rfl,rfl,rfl⟩⟩
  · refine .inr ⟨setDisassoc_authData _,fun alone => ?_⟩
    have same : setDisassoc {s with mem := s.mem.alloc .assoc} = {s with mem := s.mem.alloc .assoc} := setDisassoc_free alone
    rw [same]
    exact ⟨rfl,rfl,rfl,rfl,rfl⟩
  · refine .inl ?_
    obtain ⟨-,auth,-,-⟩ := @prepConnection_same cfg sband a.setup req.bss true
      (startAssoc sband hw s.mem.next req (setDisassoc {s with mem := s.mem.alloc .assoc}))
    have none : (startAssoc sband hw s.mem.next req (setDisassoc {s with mem := s.mem.alloc .assoc})).authData = none :=
      destroyAuthData_authData _ _
    rw [none] at auth
    generalize prepConnection cfg sband a.setup req.bss true
      (startAssoc sband hw s.mem.next req (setDisassoc {s with mem := s.mem.alloc .assoc})) = out at *
    obtain ⟨_,_ | _⟩ := out <;> exact auth

theorem rxMgmtAuth_left (f : AuthFrame) (s : Sdata) : (rxMgmtAuth f s).authData = none ∨ Apart s (rxMgmtAuth f s) := by
  unfold rxMgmtAuth
  cases data : s.authData with
  | none => exact .inl data
  | some =>
    dsimp only
    split_ifs
    · exact .inr (apart_refl s)
    · exact .inr (apart_refl s)
    · exact .inl (destroyAuthData_authData false s)
    · exact .inr ⟨rfl,rfl,rfl,rfl,rfl⟩
    · exact .inr (apart_refl s)
    · exact .inr ⟨rfl,rfl,rfl,rfl,rfl⟩

section
variable (a : WorkAnswers)

theorem workAuth_left (s : Sdata) : (workAuth a s).authData = none ∨ Apart s (workAuth a s) := by
  unfold workAuth
  cases data : s.authData with
  | none => exact .inl data
  | some =>
    dsimp only
    obtain ⟨_,after,-⟩ := probeAuth_keeps a.proberesp a.ssid data
    generalize probeAuth a.proberesp a.ssid s = out at after
    obtain ⟨tried,_ | _⟩ := out
    · split_ifs
      · exact .inr (apart_refl s)
      · exact .inl (destroyAuthData_authData false s)
      · dsimp only at after ⊢
        rw [after]
        exact .inr ⟨rfl,rfl,rfl,rfl,rfl⟩
    · split_ifs
      · exact .inr (apart_refl s)
      · exact .inl (destroyAuthData_authData false s)
      · exact .inl (destroyAuthData_authData false tried)

theorem workAssoc_authData (s : Sdata) : (workAssoc a s).authData = s.authData := by
  unfold workAssoc doAssoc
  cases data : s.assocData with
  | none => rfl
  | some =>
    dsimp only
    split_ifs
    · rfl
    · exact destroyAssocData_authData false s
    · exact destroyAssocData_authData false _
    · rfl

theorem workAssoc_free (free : s.assocData = none) : workAssoc a s = s := by
  unfold workAssoc
  rw [free]

theorem workStatus_apart (free : s.assocData = none) : Apart s (workStatus a s) := by
  unfold workStatus
  split
  · exact ⟨rfl,rfl,rfl,rfl,rfl⟩
  · rename_i own
    cases free.symm.trans own
  · exact apart_refl s

theorem staWork_left (free : s.assocData = none) (alone : s.associated = none) :
    (staWork a s).authData = none ∨ Apart s (staWork a s) := by
  have status := workStatus_apart a free
  unfold staWork
  dsimp only
  obtain gone | later := workAuth_left a (workStatus a s)
  · refine .inl ?_
    have none := (workAssoc_authData a (workAuth a (workStatus a s))).trans gone
    split_ifs
    · exact (setDisassoc_authData _).trans none
    · exact none
  · have apart := status.trans later
    rw [workAssoc_free a (apart.assocData.trans free),setDisassoc_free (apart.associated.trans alone)]
    split_ifs <;> exact .inr apart

theorem staWork_none (gone : s.authData = none) : (staWork a s).authData = none := by
  have status : (workStatus a s).authData = none := by
    unfold workStatus
    split
    · rename_i auth
      cases gone.symm.trans auth
    · exact gone
    · exact gone
  have auth : workAuth a (workStatus a s) = workStatus a s := by
    unfold workAuth
    rw [status]
  have none := (workAssoc_authData a (workStatus a s)).trans status
  unfold staWork
  rw [auth]
  split_ifs
  · exact (setDisassoc_authData _).trans none
  · exact none

end

theorem rxMgmtAssocResp_authData (f : AssocFrame) (s : Sdata) : (rxMgmtAssocResp f s).authData = s.authData := by
  unfold rxMgmtAssocResp assocSuccess
  cases data : s.assocData with
  | none => rfl
  | some =>
    dsimp only
    split_ifs
    · rfl
    · rfl
    all_goals exact destroyAssocData_authData _ _

theorem rxMgmtBeacon_authData (b : Beacon) (s : Sdata) : (rxMgmtBeacon cfg sband b s).authData = s.authData := by
  unfold rxMgmtBeacon
  by_cases off : (!s.link.chanctx || !b.onChannel) = true
  · rw [if_pos off]
  rw [if_neg off]
  cases s.assocData.filter fun data => data.needBeacon && data.bssid = b.bssid with
  | some => rfl
  | none =>
    dsimp only
    split_ifs
    · rfl
    · rfl
    · exact setDisassoc_authData _
    · rfl

theorem mgdStop_authData (s : Sdata) : (mgdStop s).authData = none := destroyAuthData_authData false _

theorem mgdDeauth_left (bssid : Nat) (s : Sdata) :
    (mgdDeauth bssid s).1.authData = none ∨ (mgdDeauth bssid s).1 = s ∨ (mgdDeauth bssid s).1 = setDisassoc s := by
  unfold mgdDeauth
  split_ifs
  · exact .inl (destroyAuthData_authData false s)
  · exact .inr (.inr rfl)
  · exact .inr (.inl rfl)

theorem mgdQuiesce_authData (wowlan : Bool) (s : Sdata) : (mgdQuiesce wowlan s).authData = none := by
  have stopped := mgdStop_authData s
  unfold mgdQuiesce
  dsimp only
  cases (mgdStop s).associated with
  | none => exact stopped
  | some bssid =>
    cases wowlan with
    | true => exact stopped
    | false =>
      dsimp only
      obtain gone | same | left := mgdDeauth_left bssid (mgdStop s)
      · exact gone
      · rw [if_neg Bool.false_ne_true,same]
        exact stopped
      · rw [if_neg Bool.false_ne_true,left]
        exact (setDisassoc_authData _).trans stopped

theorem step_none (e : Event) (gone : s.authData = none) (kept : between cfg sband hw s e = true) :
    (step cfg sband hw s e).authData = none := by
  unfold step serve
  cases e with
  | auth req a =>
    obtain none | ⟨-,same⟩ := mgdAuth_failed req a kept
    · exact none
    · exact same.trans gone
  | assoc req a =>
    obtain none | ⟨same,-⟩ := @mgdAssoc_left cfg sband hw s req a
    · exact none
    · exact same.trans gone
  | deauth bssid =>
    obtain none | same | left := mgdDeauth_left bssid s
    · exact none
    · rw [same]
      exact gone
    · rw [left]
      exact (setDisassoc_authData s).trans gone
  | disassoc =>
    dsimp only
    unfold mgdDisassoc
    split_ifs
    · exact gone
    · exact (setDisassoc_authData s).trans gone
  | rxProbeResp =>
    unfold rxMgmtProbeResp
    rw [gone]
    exact gone
  | rxAuth =>
    unfold rxMgmtAuth
    rw [gone]
    exact gone
  | rxDisconnect =>
    dsimp only
    unfold rxMgmtDisconnect
    split_ifs
    · exact gone
    · exact (setDisassoc_authData s).trans gone
  | rxAssocResp f => exact (rxMgmtAssocResp_authData f s).trans gone
  | rxBeacon b => exact (rxMgmtBeacon_authData b s).trans gone
  | work a => exact staWork_none a gone
  | disconnect => exact (setDisassoc_authData s).trans gone
  | quiesce wowlan => exact mgdQuiesce_authData wowlan s
  | stop => exact mgdStop_authData s

theorem step_left (e : Event) (free : s.assocData = none) (alone : s.associated = none) (kept : between cfg sband hw s e = true) :
    (step cfg sband hw s e).authData = none ∨ Apart s (step cfg sband hw s e) := by
  have unassociated : setDisassoc s = s := setDisassoc_free alone
  unfold step serve
  cases e with
  | auth req a =>
    obtain none | ⟨apart,-⟩ := mgdAuth_failed req a kept
    · exact .inl none
    · exact .inr apart
  | assoc req a =>
    obtain none | ⟨-,apart⟩ := @mgdAssoc_left cfg sband hw s req a
    · exact .inl none
    · exact .inr (apart alone)
  | deauth bssid =>
    obtain none | same | left := mgdDeauth_left bssid s
    · exact .inl none
    · rw [same]
      exact .inr (apart_refl s)
    · rw [left,unassociated]
      exact .inr (apart_refl s)
  | disassoc =>
    dsimp only
    unfold mgdDisassoc
    rw [if_pos (by simp [alone])]
    exact .inr (apart_refl s)
  | rxProbeResp =>
    dsimp only
    unfold rxMgmtProbeResp
    cases data : s.authData with
    | none => exact .inl data
    | some =>
      dsimp only
      split_ifs
      · exact .inr (apart_refl s)
      · exact .inr ⟨rfl,rfl,rfl,rfl,rfl⟩
  | rxAuth f => exact rxMgmtAuth_left f s
  | rxDisconnect =>
    dsimp only
    unfold rxMgmtDisconnect
    rw [if_pos (by simp [alone])]
    exact .inr (apart_refl s)
  | rxAssocResp =>
    unfold rxMgmtAssocResp
    rw [free]
    exact .inr (apart_refl s)
  | rxBeacon b =>
    dsimp only
    have same : rxMgmtBeacon cfg sband b s = s := by
      unfold rxMgmtBeacon
      rw [free]
      simp [alone]
    rw [same]
    exact .inr (apart_refl s)
  | work a => exact staWork_left a free alone
  | disconnect =>
    rw [unassociated]
    exact .inr (apart_refl s)
  | quiesce wowlan => exact .inl (mgdQuiesce_authData wowlan s)
  | stop => exact .inl (mgdStop_authData s)

theorem run_apart (path : Run (step cfg sband hw) (fun s e => between cfg sband hw s e = true) s s') (free : s.assocData = none)
    (alone : s.associated = none) (going : s'.authData.isSome = true) : Apart s s' := by
  have left := path.keeps (fun t => t.authData = none ∨ Apart s t) (.inr (apart_refl s)) fun t e holds kept => by
    obtain gone | apart := holds
    · exact .inl (step_none e gone kept)
    · obtain gone | later := step_left e (apart.assocData.trans free) (apart.associated.trans alone) kept
      · exact .inl gone
      · exact .inr (apart.trans later)
  obtain gone | apart := left
  · rw [gone] at going
    cases going
  · exact apart

end events

end Mac80211.Mlme

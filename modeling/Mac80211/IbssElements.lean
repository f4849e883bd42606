import Mac80211.Ibss
import Mac80211.Transitions

namespace Mac80211.Ibss
open Blocks (Memory Accounted)
open RxReorder (Jiffies)
open Transitions (Run)

abbrev Asked := Option (Option Elements)

def asks (asked : Asked) : Event → Asked
  | .join a p _ => if (joinRefusal a p).isSome then asked else some (if a.alloc then p.ie else none)
  | .leave => none
  | _ => asked

def Asked.bytes (asked : Asked) : List UInt8 := (asked.join.map Subtype.val).getD []

def Sdata.holds (s : Sdata) : Bool := s.ibss.ie.any fun addr => !s.memory.freed.contains addr

def Sdata.held (s : Sdata) : List Nat := if s.holds then s.ibss.ie.toList else []

-- No dangling pointer or length without a block is taken over or freed, and no live block is forgotten.
def careful (s : Sdata) : Event → Bool
  | .join a p _ =>
    (joinRefusal a p).isSome ||
      if p.ie.isNone then s.ibss.ie.isNone && s.ibss.ieLen == 0
      else !s.holds && (a.alloc || s.ibss.ieLen == 0)
  | .leave => s.ibss.ie.isNone || s.holds
  | .finishSwitch _ _ _ => s.ibss.ssid != []
  | _ => true

def turn (hw : Hw) (hz : Jiffies) (w : Sdata × Asked) (e : Event) : Sdata × Asked := (step hw hz w.1 e,asks w.2 e)

def Configured (s : Sdata) : Asked → Prop
  | none => True
  | some none => s.ibss.ie = none ∧ s.ibss.ieLen = 0
  | some (some bytes) => ∃ addr, s.ibss.ie = some addr ∧ s.memory.load addr = some bytes.1 ∧ s.ibss.ieLen.toNat = bytes.1.length

structure Sound (s : Sdata) (asked : Asked) : Prop where
  configured : Configured s asked
  accounted : Accounted s.held s.memory
  idle : asked = none → s.ibss.ssid = [] ∧ s.conf.ibssJoined = false ∧ s.holds = false

def Sdata.elements (s : Sdata) : Option Nat × UInt8 × Memory (List UInt8) × List UInt8 := (s.ibss.ie,s.ibss.ieLen,s.memory,s.ibss.ssid)

section builds
variable {s : Sdata}

theorem vifUseChannel_elements (a : Answers) (chandef : Chan.Chandef) (mode : Chan.Mode) (s : Sdata) :
    (vifUseChannel a chandef mode s).2.elements = s.elements := by
  unfold vifUseChannel
  cases a.dfsRequired chandef with
  | error => rfl
  | ok radar =>
    dsimp only
    cases a.checkCombinations chandef mode (if radar then some chandef.width else none) with
    | some => rfl
    | none =>
      cases a.context chandef mode with
      | error => rfl
      | ok => cases a.assign <;> rfl

theorem enterIbss_elements (hw : Hw) (a : Answers) (j : Join) (chandef : Chan.Chandef) (s : Sdata) :
    (enterIbss hw a j chandef s).1.elements = s.elements := by
  unfold enterIbss
  cases buildPresp hw a s (announced s j chandef) none with
  | none => rfl
  | some => cases a.drvJoinIbss <;> rfl

theorem joinIbss_elements (hw : Hw) (a : Answers) (j : Join) (s : Sdata) : (joinIbss hw a j s).1.elements = s.elements := by
  unfold joinIbss
  cases beaconChandef a j.chandef with
  | none => rfl
  | some chandef =>
    dsimp only
    cases dfsAllowed a (leaveOld s).ibss.userspaceHandlesDfs chandef with
    | false => rfl
    | true =>
      have kept := vifUseChannel_elements a chandef (leaveOld s).ibss.mode (leaveOld s)
      generalize vifUseChannel a chandef (leaveOld s).ibss.mode (leaveOld s) = answer at kept ⊢
      obtain ⟨refused,t⟩ := answer
      cases refused with
      | some => exact kept
      | none => exact (enterIbss_elements hw a j chandef t).trans kept

theorem extra_elements {t : Sdata} (same : t.elements = s.elements) (other : Nat → UInt8) : t.extra other = s.extra other := by
  simp only [Sdata.elements,Prod.mk.injEq] at same
  obtain ⟨ie,len,memory,-⟩ := same
  unfold Sdata.extra
  rw [ie,len,memory]

theorem buildPresp_extra (built : buildPresp hw a s n csa = some presp) : presp.extra = s.extra a.other := ibssBuildPresp_extra built

theorem enterIbss_extra (j : Join) (chandef : Chan.Chandef) (built : (enterIbss hw a j chandef s).2 = some presp) :
    presp.extra = s.extra a.other := by
  unfold enterIbss at built
  cases made : buildPresp hw a s (announced s j chandef) none with
  | none =>
    rw [made] at built
    cases built
  | some beacon =>
    rw [made] at built
    have same : beacon = presp := by
      dsimp only at built
      split at built <;> exact Option.some.inj built
    exact same ▸ buildPresp_extra made

theorem joinIbss_extra (j : Join) (built : (joinIbss hw a j s).2 = some presp) : presp.extra = s.extra a.other := by
  unfold joinIbss at built
  cases chosen : beaconChandef a j.chandef with
  | none =>
    rw [chosen] at built
    cases built
  | some chandef =>
    rw [chosen] at built
    dsimp only at built
    cases allowed : dfsAllowed a (leaveOld s).ibss.userspaceHandlesDfs chandef with
    | false =>
      rw [allowed] at built
      cases built
    | true =>
      rw [allowed,Bool.not_true,if_neg Bool.false_ne_true] at built
      have kept := vifUseChannel_elements a chandef (leaveOld s).ibss.mode (leaveOld s)
      generalize vifUseChannel a chandef (leaveOld s).ibss.mode (leaveOld s) = answer at kept built
      obtain ⟨refused,t⟩ := answer
      cases refused with
      | some => cases built
      | none => exact (enterIbss_extra j chandef built).trans (extra_elements kept a.other)

theorem csaBeacon_elements (hw : Hw) (a : Answers) (csa : Option CsaSettings) (tsf : Option UInt64) (s : Sdata) :
    (ibssCsaBeacon hw a csa tsf s).1.elements = s.elements := by
  unfold ibssCsaBeacon
  cases tsf with
  | none => rfl
  | some =>
    dsimp only
    split <;> rfl

theorem csaBeacon_extra (csa : Option CsaSettings) (tsf : Option UInt64) (built : (ibssCsaBeacon hw a csa tsf s).2 = some presp) :
    presp.extra = s.extra a.other := by
  unfold ibssCsaBeacon at built
  cases tsf with
  | none => cases built
  | some =>
    dsimp only at built
    split at built
    · cases built
    · rename_i beacon made
      cases Option.some.inj built
      exact buildPresp_extra made

theorem configured_extra (configured : Configured s asked) (joined : asked.isSome) (other : Nat → UInt8) :
    s.extra other = Asked.bytes asked := by
  unfold Sdata.extra
  cases asked with
  | none => cases joined
  | some elements =>
    cases elements with
    | none =>
      obtain ⟨ie,len⟩ := configured
      rw [ie,len]
      rfl
    | some bytes =>
      obtain ⟨_,ie,live,len⟩ := configured
      rw [ie,len]
      simp only [Option.bind_some,live,Option.getD_some]
      refine List.ext_getElem (by simp [Asked.bytes]) ?_
      intro i _ high
      have bound : i < bytes.1.length := high
      simp [Asked.bytes,List.getD_eq_getElem?_getD,List.getElem?_eq_getElem bound]

end builds

section events
variable {s t : Sdata}

theorem held_elements (same : t.elements = s.elements) : t.held = s.held ∧ t.holds = s.holds := by
  simp only [Sdata.elements,Prod.mk.injEq] at same
  obtain ⟨ie,-,memory,-⟩ := same
  unfold Sdata.held Sdata.holds
  rw [ie,memory]
  exact ⟨rfl,rfl⟩

theorem sound_same (sound : Sound s asked) (same : t.elements = s.elements)
    (idle : asked = none → t.conf.ibssJoined = false) : Sound t asked := by
  obtain ⟨held,holds⟩ := held_elements same
  have fields := same
  simp only [Sdata.elements,Prod.mk.injEq] at fields
  obtain ⟨ie,len,memory,ssid⟩ := fields
  refine ⟨?_,?_,?_⟩
  · have configured := sound.configured
    unfold Configured at configured ⊢
    rwa [ie,len,memory]
  · rw [held,memory]
    exact sound.accounted
  · intro none
    rw [ssid,holds]
    exact ⟨(sound.idle none).1,idle none,(sound.idle none).2.2⟩

theorem holds_live (holds : s.holds = true) : ∃ addr, s.ibss.ie = some addr ∧ s.held = [addr] := by
  unfold Sdata.held
  cases ie : s.ibss.ie with
  | none =>
    rw [Sdata.holds,ie] at holds
    cases holds
  | some addr => exact ⟨addr,rfl,if_pos holds⟩

theorem leave_sound (sound : Sound s asked) (proper : s.ibss.ie = none ∨ s.holds = true) : Sound (ibssLeave s) none := by
  have freed : Accounted [] (ibssLeave s).memory := by
    have accounted := sound.accounted
    obtain none | holds := proper
    · have nothing : s.held = [] := by simp [Sdata.held,Sdata.holds,none]
      rw [nothing] at accounted
      simpa [ibssLeave,ibssDisconnect,none] using accounted
    · obtain ⟨addr,ie,held⟩ := holds_live holds
      rw [held] at accounted
      have given : (ibssLeave s).memory = s.memory.free (some addr) := by simp [ibssLeave,ibssDisconnect,ie]
      rw [given]
      exact accounted.free
  have empty : (ibssLeave s).holds = false := by
    cases ie : s.ibss.ie with
    | none => simp [Sdata.holds,ibssLeave,ibssDisconnect,ie]
    | some => simp [Sdata.holds,ibssLeave,ibssDisconnect,Memory.free,ie]
  refine ⟨trivial,?_,fun _ => ⟨rfl,rfl,empty⟩⟩
  rw [Sdata.held,empty]
  exact freed

theorem not_held (empty : s.holds = false) : s.held = [] := by simp [Sdata.held,empty]

theorem copy_sound (accounted : Accounted s.held s.memory) (a : Answers) (ie : Option Elements)
    (proper : (ie = none ∧ s.ibss.ie = none ∧ s.ibss.ieLen = 0) ∨ (ie ≠ none ∧ s.holds = false ∧ (a.alloc = true ∨ s.ibss.ieLen = 0))) :
    Sound (copyElements a ie s) (some (if a.alloc then ie else none)) := by
  refine ⟨?_,?_,nofun⟩
  · obtain ⟨rfl,pointer,len⟩ | ⟨given,empty,copied⟩ := proper
    · rw [ite_self]
      exact ⟨pointer,len⟩
    cases ie with
    | none => exact absurd rfl given
    | some bytes =>
      cases alloc : a.alloc with
      | true =>
        refine ⟨s.memory.next,by simp [copyElements,alloc],?_,?_⟩
        · simpa [copyElements,alloc] using Blocks.load_alloc accounted bytes.1
        · have small : bytes.1.length < 256 := bytes.2
          simpa [copyElements,alloc] using small
      | false =>
        have len : s.ibss.ieLen = 0 := by simpa [alloc] using copied
        exact ⟨by simp [copyElements,alloc],by simpa [copyElements,alloc] using len⟩
  obtain ⟨rfl,_,_⟩ | ⟨given,empty,_⟩ := proper
  · exact accounted
  cases ie with
  | none => exact absurd rfl given
  | some bytes =>
    rw [not_held empty] at accounted
    cases alloc : a.alloc with
    | true =>
      have fresh : s.memory.next ∉ (s.memory.alloc bytes.1).freed := accounted.fresh
      have held : (copyElements a (some bytes) s).held = [s.memory.next] := by
        simp [Sdata.held,Sdata.holds,copyElements,alloc,fresh]
      rw [held]
      simpa [copyElements,alloc] using accounted.alloc bytes.1
    | false =>
      have held : (copyElements a (some bytes) s).held = [] := by simp [Sdata.held,Sdata.holds,copyElements,alloc]
      rw [held]
      simpa [copyElements,alloc] using accounted

theorem workAttempt_ready
    (tries : workAttempt hw hz now active found random s = some j) : s.ibss.ssid ≠ [] := by
  intro idle
  simp [workAttempt,idle] at tries

theorem beaconAttempt_ready
    (tries : beaconAttempt hw bss ssid handled beaconTimestamp rxTimestamp s = some j) : s.ibss.ssid ≠ [] :=
  (Option.ite_none_right_eq_some.mp tries).1.1

theorem ready_asked (sound : Sound s asked) (ready : s.ibss.ssid ≠ []) : asked ≠ none := fun none => ready (sound.idle none).1

theorem attempt_sound (attempt : Option Join) (sound : Sound s asked) (ready : ∀ j, attempt = some j → s.ibss.ssid ≠ []) :
    Sound (attempt.elim (s,none) fun j => joinIbss hw a j s).1 asked := by
  cases attempt with
  | none => exact sound
  | some j => exact sound_same sound (joinIbss_elements hw a j s) fun none => absurd none (ready_asked sound (ready j rfl))

theorem join_sound (now : Jiffies) (sound : Sound s asked) (proper : careful s (.join a p now) = true) :
    Sound (step hw hz s (.join a p now)) (asks asked (.join a p now)) := by
  have result : step hw hz s (.join a p now) = _ := serve_join hw hz a p now s
  rw [result]
  unfold asks
  dsimp only
  cases refused : (joinRefusal a p).isSome with
  | true =>
    exact sound
  | false =>
    refine copy_sound (s := configure hw p now s) sound.accounted a p.ie ?_
    unfold careful at proper
    dsimp only at proper
    rw [refused,Bool.false_or] at proper
    cases ie : p.ie with
    | none =>
      have clear : s.ibss.ie = none ∧ s.ibss.ieLen = 0 := by simpa [ie] using proper
      exact .inl ⟨rfl,clear⟩
    | some =>
      have free : s.holds = false ∧ (a.alloc = true ∨ s.ibss.ieLen = 0) := by simpa [ie] using proper
      exact .inr ⟨nofun,free⟩

theorem step_sound (e : Event) (sound : Sound s asked) (proper : careful s e = true) : Sound (step hw hz s e) (asks asked e) := by
  cases e with
  | join a p now => exact join_sound now sound proper
  | leave =>
    have allowed : s.ibss.ie = none ∨ s.holds = true := by simpa [careful] using proper
    exact leave_sound sound allowed
  | work a now active found random =>
    have made : step hw hz s (.work a now active found random) = _ :=
      congrArg Prod.fst (ibssWork_attempt hw a hz now active found random s)
    rw [made]
    exact attempt_sound _ sound fun _ => workAttempt_ready
  | beacon a bss ssid handled beaconTimestamp rxTimestamp =>
    have made : step hw hz s (.beacon a bss ssid handled beaconTimestamp rxTimestamp) = _ :=
      congrArg Prod.fst (rxBssInfo_attempt hw a bss ssid handled beaconTimestamp rxTimestamp s)
    rw [made]
    exact attempt_sound _ sound fun _ => beaconAttempt_ready
  | scanCompleted => exact sound_same sound rfl fun none => (sound.idle none).2.1
  | connectionDrop => exact sound_same sound rfl fun _ => rfl
  | announceSwitch a csa tsf =>
    unfold step serve setCsaBeacon
    dsimp only
    cases joined : s.conf.ibssJoined with
    | false => exact sound
    | true =>
      have current : asked ≠ none := by
        intro none
        rw [(sound.idle none).2.1] at joined
        cases joined
      rw [Bool.not_true,if_neg Bool.false_ne_true]
      split_ifs
      · exact sound
      · exact sound
      · exact sound_same sound (csaBeacon_elements hw a (some csa) tsf s) fun none => absurd none current
  | finishSwitch a csaChandef tsf =>
    have ready : s.ibss.ssid ≠ [] := by simpa [careful] using proper
    exact sound_same sound (csaBeacon_elements hw a none tsf {s with ibss := {s.ibss with chandef := csaChandef}})
      fun none => absurd none (ready_asked sound ready)

theorem serve_extra (e : Event) (sound : Sound s asked) (proper : careful s e = true) (built : (serve hw hz s e).2 = some presp) :
    presp.extra = (asks asked e).bytes := by
  have carries (ready : asked ≠ none) {a : Answers} (extra : presp.extra = s.extra a.other) : presp.extra = asked.bytes :=
    extra.trans (configured_extra sound.configured (Option.isSome_iff_ne_none.mpr ready) a.other)
  cases e with
  | join =>
    unfold serve ibssJoin at built
    dsimp only at built
    split at built <;> cases built
  | leave | scanCompleted | connectionDrop => cases built
  | work a now active found random =>
    have made : serve hw hz s (.work a now active found random) = _ := ibssWork_attempt ..
    rw [made] at built
    cases tries : workAttempt hw hz now active found random s with
    | none =>
      rw [tries] at built
      cases built
    | some j =>
      rw [tries] at built
      exact carries (ready_asked sound (workAttempt_ready tries)) (joinIbss_extra j built)
  | beacon a bss ssid handled beaconTimestamp rxTimestamp =>
    have made : serve hw hz s (.beacon a bss ssid handled beaconTimestamp rxTimestamp) = _ := rxBssInfo_attempt ..
    rw [made] at built
    cases tries : beaconAttempt hw bss ssid handled beaconTimestamp rxTimestamp s with
    | none =>
      rw [tries] at built
      cases built
    | some j =>
      rw [tries] at built
      exact carries (ready_asked sound (beaconAttempt_ready tries)) (joinIbss_extra j built)
  | announceSwitch a csa tsf =>
    unfold serve setCsaBeacon at built
    dsimp only at built
    cases joined : s.conf.ibssJoined with
    | false =>
      rw [joined] at built
      cases built
    | true =>
      have current : asked ≠ none := by
        intro none
        rw [(sound.idle none).2.1] at joined
        cases joined
      split_ifs at built
      exact carries current (csaBeacon_extra (some csa) tsf built)
  | finishSwitch a csaChandef tsf =>
    have ready : s.ibss.ssid ≠ [] := by simpa [careful] using proper
    exact carries (ready_asked sound ready) (csaBeacon_extra (s := {s with ibss := {s.ibss with chandef := csaChandef}}) none tsf built)

theorem sound_held (sound : Sound s asked) : s.held = if asked ≠ none then s.ibss.ie.toList else [] := by
  have configured := sound.configured
  cases asked with
  | none => exact not_held (sound.idle rfl).2.2
  | some elements =>
    cases elements with
    | none => simp [Sdata.held,configured.1]
    | some =>
      obtain ⟨addr,ie,live,_⟩ := configured
      have kept : addr ∉ s.memory.freed := by
        intro freed
        rw [Memory.load,if_pos freed] at live
        cases live
      simp [Sdata.held,Sdata.holds,ie,kept]

theorem setup_sound : Sound setup none := ⟨trivial,Blocks.empty_accounted,fun _ => ⟨rfl,rfl,rfl⟩⟩

theorem elements_configured (hw : Hw) (hz : Jiffies) {w : Sdata × Asked}
    (path : Run (turn hw hz) (fun w e => careful w.1 e) (setup,none) w) :
    Configured w.1 w.2 ∧
    (∀ addr < w.1.memory.next, w.1.memory.freed.count addr = if w.2 ≠ none ∧ w.1.ibss.ie = some addr then 0 else 1) ∧
    ∀ e, careful w.1 e = true → ∀ presp, (serve hw hz w.1 e).2 = some presp → presp.extra = (asks w.2 e).bytes := by
  have sound : Sound w.1 w.2 := path.keeps (fun w => Sound w.1 w.2) setup_sound fun _ e sound proper => step_sound e sound proper
  refine ⟨sound.configured,?_,fun e proper presp built => serve_extra e sound proper built⟩
  intro addr given
  have once : w.1.held.count addr + w.1.memory.freed.count addr = 1 := sound.accounted.once given
  rw [sound_held sound] at once
  split_ifs with current
  · rw [if_pos current.1,current.2] at once
    simpa using once
  · cases asked : w.2 with
    | none => simpa [asked] using once
    | some elements =>
      have other : w.1.ibss.ie ≠ some addr := fun ie => current ⟨by simp [asked],ie⟩
      cases ie : w.1.ibss.ie with
      | none => simpa [asked,ie] using once
      | some held =>
        have apart : held ≠ addr := fun same => other (by rw [ie,same])
        simpa [asked,ie,List.count_singleton,apart] using once

def elements : Elements := ⟨[221,1,7],by decide⟩

def turns (events : List Event) : Sdata × Asked := events.foldl (turn radio 100) (setup,none)

def finding : Event := .work willing 20 false (some (network 7 5)) (macAddr 0 0 0 0 0 0)

def joinsTwice : List Event := [.join willing (request (some elements)) 10,.leave,.join willing (request (some elements)) 15]

theorem elements_configured_sample :
    (turns joinsTwice).2 = some (some elements) ∧ Configured (turns joinsTwice).1 (turns joinsTwice).2 ∧
    (turns joinsTwice).1.memory.freed.count 0 = 1 ∧
    ∃ presp, (serve radio 100 (turns joinsTwice).1 finding).2 = some presp ∧ presp.extra = [221,1,7] := by
  have path : Run (turn radio 100) (fun w e => careful w.1 e) (setup,none) (turns joinsTwice) :=
    ((Run.start.next (e := joinsTwice[0]) (by decide +kernel)).next (e := joinsTwice[1]) (by decide +kernel)).next
      (e := joinsTwice[2]) (by decide +kernel)
  obtain ⟨configured,once,carries⟩ := elements_configured radio 100 path
  have built : (serve radio 100 (turns joinsTwice).1 finding).2.isSome := by decide +kernel
  obtain ⟨presp,made⟩ := Option.isSome_iff_exists.mp built
  exact ⟨rfl,configured,once 0 (by decide +kernel),presp,made,carries finding (by decide +kernel) presp made⟩

def joinsWithout : List Event := [.join willing (request (some elements)) 10,.leave,.join willing (request none) 15]

-- A join without elements takes over a pointer that the last leave has freed.
theorem stale_elements :
    ¬(∀ events : List Event, Configured (turns events).1 (turns events).2) ∧
    (turns joinsWithout).2 = some none ∧
    (serve radio 100 (turns joinsWithout).1 finding).2.map Presp.extra = some [0,0,0] ∧
    (turns (joinsWithout ++ [.leave])).1.memory.freed = [0,0] := by
  refine ⟨?_,rfl,by decide +kernel,by decide +kernel⟩
  intro always
  have configured : (turns joinsWithout).1.ibss.ie = none := (always joinsWithout).1
  revert configured
  decide +kernel

end events

end Mac80211.Ibss

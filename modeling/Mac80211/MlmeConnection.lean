import Mac80211.Mlme

namespace Mac80211.Mlme
open Chan (Chandef)
open Blocks (Accounted)

def held (s : Sdata) : List Nat := (s.authData.map AuthData.addr).toList ++ (s.assocData.map AssocData.addr).toList

def owned (s : Sdata) : Bool := s.authData.isSome || s.assocData.isSome || s.associated.isSome

structure Consistent (s : Sdata) : Prop where
  channel : s.link.chanctx = true → owned s = true
  apart : s.authData = none ∨ s.assocData = none
  memory : Accounted (held s) s.mem

structure Undone (s after : Sdata) : Prop where
  authData : after.authData = none ∨ after.authData = s.authData
  assocData : after.assocData = none ∨ after.assocData = s.assocData
  stas : ∀ sta ∈ after.stas, sta ∈ s.stas
  channel : after.link.chanctx = true → s.link.chanctx = true

section releases

@[simp] theorem setDisassoc_authData (s : Sdata) : (setDisassoc s).authData = s.authData := by
  unfold setDisassoc releaseChannel
  split_ifs <;> rfl

@[simp] theorem setDisassoc_assocData (s : Sdata) : (setDisassoc s).assocData = s.assocData := by
  unfold setDisassoc releaseChannel
  split_ifs <;> rfl

@[simp] theorem setDisassoc_mem (s : Sdata) : (setDisassoc s).mem = s.mem := by
  unfold setDisassoc releaseChannel
  split_ifs <;> rfl

theorem setDisassoc_channel (held : (setDisassoc s).link.chanctx = true) : s.link.chanctx = true ∧ s.associated = none := by
  unfold setDisassoc releaseChannel at held
  cases free : s.associated with
  | none =>
    rw [if_pos (by simp [free])] at held
    exact ⟨held,rfl⟩
  | some =>
    rw [if_neg (by simp [free])] at held
    cases held

theorem setDisassoc_stas (member : sta ∈ (setDisassoc s).stas) : sta ∈ s.stas := by
  unfold setDisassoc releaseChannel at member
  split_ifs at member
  · exact member
  · cases member

theorem setDisassoc_consistent (consistent : Consistent s) : Consistent (setDisassoc s) := by
  refine ⟨?_,by simpa using consistent.apart,by simpa [held] using consistent.memory⟩
  intro holds
  obtain ⟨before,free⟩ := setDisassoc_channel holds
  have owner := consistent.channel before
  simpa [owned,free] using Or.inl owner

section
variable (assoc : Bool) (s : Sdata)

@[simp] theorem destroyAuthData_authData : (destroyAuthData assoc s).authData = none := by
  unfold destroyAuthData
  cases data : s.authData with
  | none => exact data
  | some => rfl

@[simp] theorem destroyAuthData_assocData : (destroyAuthData assoc s).assocData = s.assocData := by
  unfold destroyAuthData
  cases data : s.authData with
  | none => rfl
  | some => cases assoc <;> rfl

@[simp] theorem destroyAuthData_associated : (destroyAuthData assoc s).associated = s.associated := by
  unfold destroyAuthData
  cases data : s.authData with
  | none => rfl
  | some => cases assoc <;> rfl

@[simp] theorem destroyAssocData_assocData : (destroyAssocData assoc s).assocData = none := by
  unfold destroyAssocData
  cases data : s.assocData with
  | none => exact data
  | some => rfl

@[simp] theorem destroyAssocData_authData : (destroyAssocData assoc s).authData = s.authData := by
  unfold destroyAssocData
  cases data : s.assocData with
  | none => rfl
  | some => cases assoc <;> rfl

@[simp] theorem destroyAssocData_associated : (destroyAssocData assoc s).associated = s.associated := by
  unfold destroyAssocData
  cases data : s.assocData with
  | none => rfl
  | some => cases assoc <;> rfl

end

theorem dropConnection_stas (member : sta ∈ (dropConnection addr s).stas) : sta ∈ s.stas :=
  (List.mem_filter.mp member).1

theorem destroyAuthData_stas (member : sta ∈ (destroyAuthData assoc s).stas) : sta ∈ s.stas := by
  unfold destroyAuthData at member
  cases data : s.authData with
  | none =>
    rw [data] at member
    exact member
  | some =>
    rw [data] at member
    cases assoc with
    | true => exact member
    | false => exact dropConnection_stas member

-- What both leave of the link.
def leftLink (kept : Bool) (l : Link) : Link := if kept then l else {l with flags := noFlags,chanctx := false}

theorem destroyAuthData_link (assoc : Bool) (s : Sdata) : (destroyAuthData assoc s).link = leftLink (assoc || s.authData.isNone) s.link := by
  unfold destroyAuthData
  cases s.authData <;> cases assoc <;> rfl

theorem destroyAssocData_link (assoc : Bool) (s : Sdata) : (destroyAssocData assoc s).link = leftLink (assoc || s.assocData.isNone) s.link := by
  unfold destroyAssocData
  cases s.assocData <;> cases assoc <;> rfl

theorem leftLink_channel (holds : (leftLink kept l).chanctx = true) : l.chanctx = true ∧ kept = true := by
  cases kept with
  | true => exact ⟨holds,rfl⟩
  | false => cases holds

theorem destroyAuthData_memory (assoc : Bool) (memory : Accounted (held s ++ more) s.mem) :
    Accounted (held (destroyAuthData assoc s) ++ more) (destroyAuthData assoc s).mem := by
  unfold destroyAuthData held at *
  cases data : s.authData with
  | none =>
    simpa [data] using memory
  | some =>
    rw [data] at memory
    cases assoc <;> exact Accounted.free memory

theorem destroyAssocData_memory (assoc : Bool) (memory : Accounted (held s) s.mem) :
    Accounted (held (destroyAssocData assoc s)) (destroyAssocData assoc s).mem := by
  unfold destroyAssocData held at *
  cases data : s.assocData with
  | none =>
    simpa [data] using memory
  | some own =>
    rw [data] at memory
    have first : Accounted (own.addr :: (s.authData.map AuthData.addr).toList) s.mem :=
      memory.swap (List.perm_append_comm.trans (List.Perm.refl _))
    cases assoc <;> simpa [dropConnection,releaseChannel,staInfoDestroyAddr] using first.free

theorem destroyAuthData_consistent (consistent : Consistent s) : Consistent (destroyAuthData false s) := by
  refine ⟨?_,.inl (destroyAuthData_authData false s),?_⟩
  · intro holds
    rw [destroyAuthData_link] at holds
    obtain ⟨before,free⟩ := leftLink_channel holds
    have owner := consistent.channel before
    simpa [owned,Option.isNone_iff_eq_none.mp free] using owner
  · simpa using @destroyAuthData_memory s [] false (by simpa using consistent.memory)

theorem destroyAssocData_consistent (consistent : Consistent s) : Consistent (destroyAssocData false s) := by
  refine ⟨?_,.inr (destroyAssocData_assocData false s),destroyAssocData_memory false consistent.memory⟩
  intro holds
  rw [destroyAssocData_link] at holds
  obtain ⟨before,free⟩ := leftLink_channel holds
  have owner := consistent.channel before
  simpa [owned,Option.isNone_iff_eq_none.mp free] using owner

end releases

structure Same (s after : Sdata) : Prop where
  mem : after.mem = s.mem
  authData : after.authData = s.authData
  assocData : after.assocData = s.assocData
  associated : after.associated = s.associated

section setup
variable {cfg : Cfg80211} {sband : Sband} {a : Setup} {bss : Bss} {assoc : Bool}

-- The interface keeps a new channel context, or an old one that no attempt released.
def strands (cfg : Cfg80211) (sband : Sband) (a : Setup) (bss : Bss) (assoc : Bool) (s : Sdata) : Bool :=
  let haveSta := assoc && hasSta bss.bssid s
  if !haveSta && !a.staAlloc then s.link.chanctx
  else if haveSta && !isOverride sband s.link then false
  else if granted a.use (candidates cfg sband bss s.link) then !haveSta && (hasSta bss.bssid s || a.insert.isSome)
  else s.link.chanctx && refusedAll a.use (candidates cfg sband bss s.link)

theorem insertSta_same (s : Sdata) : Same s (insertSta a bss s).1 := by
  unfold insertSta
  dsimp only
  split_ifs
  · exact ⟨rfl,rfl,rfl,rfl⟩
  · exact ⟨rfl,rfl,rfl,rfl⟩
  · cases a.insert <;> exact ⟨rfl,rfl,rfl,rfl⟩

theorem insertSta_error (failed : (insertSta a bss s).2 = some err) :
    (insertSta a bss s).1.stas = s.stas ∧ (s.link.chanctx = true → hasSta bss.bssid s = true ∨ a.insert.isSome = true) := by
  unfold insertSta at *
  dsimp only at *
  split_ifs with free dup
  · exact ⟨rfl,fun holds => absurd free (by simp [holds])⟩
  · exact ⟨rfl,fun _ => .inl dup⟩
  · cases insert : a.insert with
    | none =>
      rw [if_neg free,if_neg dup,insert] at failed
      cases failed
    | some => exact ⟨rfl,fun _ => .inr rfl⟩

theorem prepConnection_same (s : Sdata) : Same s (prepConnection cfg sband a bss assoc s).1 := by
  have inserted (link : Link) : Same s (insertSta a bss {s with link := link}).1 := by
    obtain ⟨mem,authData,assocData,associated⟩ := @insertSta_same a bss {s with link := link}
    exact ⟨mem,authData,assocData,associated⟩
  unfold prepConnection
  dsimp only
  split_ifs
  all_goals first
    | exact ⟨rfl,rfl,rfl,rfl⟩
    | exact inserted _

theorem prepConnection_error (present : s.authData.isSome = true ∨ s.assocData.isSome = true)
    (failed : (prepConnection cfg sband a bss assoc s).2 = some err) :
    (prepConnection cfg sband a bss assoc s).1.stas = s.stas ∧
    (strands cfg sband a bss assoc s = false → (prepConnection cfg sband a bss assoc s).1.link.chanctx = false) := by
  have some : ¬(s.authData.isNone && s.assocData.isNone) = true := by
    obtain auth | data := present
    · simp [Option.isSome_iff_ne_none.mp auth]
    · simp [Option.isSome_iff_ne_none.mp data]
  unfold prepConnection strands at *
  rw [if_neg some] at failed ⊢
  dsimp only at *
  generalize known : (assoc && hasSta bss.bssid s) = haveSta at *
  by_cases noMem : (!haveSta && !a.staAlloc) = true
  · rw [if_pos noMem,if_pos noMem]
    exact ⟨rfl,id⟩
  rw [if_neg noMem] at failed ⊢
  rw [if_neg noMem]
  by_cases prep : (!haveSta || isOverride sband s.link) = true
  · have again : ¬(haveSta && !isOverride sband s.link) = true := by
      cases haveSta <;> simp_all
    rw [if_pos prep] at failed ⊢
    rw [if_neg again]
    obtain ⟨error,chanctx⟩ := @prepChannel_spec cfg sband a.use bss s.link
    generalize prepChannel cfg sband bss a.use s.link = out at *
    generalize candidates cfg sband bss s.link = tried at *
    obtain ⟨link,_ | _⟩ := out
    · rw [Option.isNone_none] at error
      rw [← error] at chanctx ⊢
      cases haveSta with
      | true =>
        cases failed
      | false =>
        rw [Bool.not_false,if_pos rfl] at failed ⊢
        obtain ⟨stas,entry⟩ := insertSta_error failed
        refine ⟨stas,fun fine => ?_⟩
        have both := entry chanctx
        have known : hasSta bss.bssid {s with link := link} = hasSta bss.bssid s := rfl
        rw [known] at both
        simp only [if_true,Bool.true_and,Bool.or_eq_false_iff] at fine
        rw [fine.1,fine.2] at both
        simp at both
    · rw [Option.isNone_some] at error
      rw [← error] at chanctx ⊢
      rw [Option.isSome_some,if_pos rfl,if_neg Bool.false_ne_true]
      refine ⟨rfl,fun fine => ?_⟩
      rw [chanctx,Bool.false_or]
      exact fine
  · have kept : (haveSta && !isOverride sband s.link) = true := by
      cases haveSta <;> simp_all
    rw [if_neg prep] at failed
    cases haveSta with
    | true => cases failed
    | false => cases kept

theorem prepConnection_granted (ok : (prepConnection cfg sband a bss false s).2 = none) :
    a.staAlloc = true ∧ granted a.use (candidates cfg sband bss s.link) = true := by
  unfold prepConnection at ok
  simp only [Bool.false_and,Bool.not_false,Bool.true_and,Bool.true_or,if_true] at ok
  split_ifs at ok with none noMem failed
  rw [← (@prepChannel_spec cfg sband a.use bss s.link).1]
  exact ⟨by simpa using noMem,by simpa using failed⟩

end setup

-- No channel context is stranded, and no AP joined that cannot be probed.
def cleanAuth (cfg : Cfg80211) (sband : Sband) (hw : Hw) (req : AuthRequest) (a : AuthAnswers) (s : Sdata) : Bool :=
  req.alg.all fun alg =>
    let s' := {s with mem := s.mem.alloc .auth}
    let started := startAuth s.mem.next req alg s'
    alg = .sharedKey && !hw.wepTx || !a.alloc || busy s' || !strands cfg sband a.setup req.bss false started &&
      (!(a.setup.staAlloc && granted a.setup.use (candidates cfg sband req.bss started.link)) || req.bss.proberesp || req.bss.ssid)

def cleanAssoc (cfg : Cfg80211) (sband : Sband) (hw : Hw) (req : AssocRequest) (a : AuthAnswers) (s : Sdata) : Bool :=
  let s' := setDisassoc {s with mem := s.mem.alloc .assoc}
  !a.alloc || !req.bss.ssid || busy s' || !strands cfg sband a.setup req.bss true (startAssoc sband hw s.mem.next req s')

def clean (cfg : Cfg80211) (sband : Sband) (hw : Hw) (s : Sdata) : Event → Bool
  | .auth req a => cleanAuth cfg sband hw req a s
  | .assoc req a => cleanAssoc cfg sband hw req a s
  | _ => true

section requests
variable {sband : Sband}

theorem undone_refl (s : Sdata) : Undone s s := ⟨.inr rfl,.inr rfl,fun _ member => member,id⟩

theorem alloc_memory (kind : Block) (memory : Accounted (held s) s.mem) : Accounted (held s ++ [s.mem.next]) (s.mem.alloc kind) :=
  (memory.alloc kind).swap (List.perm_append_singleton s.mem.next (held s)).symm

theorem given_memory {own : List Nat} {mem : Blocks.Memory Block} (memory : Accounted (own ++ [addr]) mem) :
    Accounted own (mem.free (some addr)) :=
  (memory.swap (List.perm_append_singleton addr own)).free

theorem startAuth_facts (addr : Nat) (req : AuthRequest) (alg : AuthAlg) (s : Sdata) (free : s.assocData = none)
    (memory : Accounted (held s ++ [addr]) s.mem) :
    (startAuth addr req alg s).authData = some ⟨addr,req.bss.bssid,alg,req.saeTrans,0,0,false,false⟩ ∧
    (startAuth addr req alg s).assocData = none ∧ Accounted [addr] (startAuth addr req alg s).mem ∧
    ∀ sta ∈ (startAuth addr req alg s).stas, sta ∈ s.stas := by
  have destroyed := destroyAuthData_memory false memory
  have none : held (destroyAuthData false s) = [] := by
    simp [held,free]
  rw [none,List.nil_append] at destroyed
  unfold startAuth
  simp only [setDisassoc_authData,setDisassoc_assocData,setDisassoc_mem,destroyAuthData_assocData]
  refine ⟨trivial,free,destroyed,?_⟩
  intro _ member
  have destroyed := setDisassoc_stas member
  exact destroyAuthData_stas destroyed

theorem probeAuth_keeps (proberesp ssid : Bool) (data : s.authData = some auth) :
    ∃ later, (probeAuth proberesp ssid s).1 = {s with authData := some later} ∧ later.addr = auth.addr := by
  unfold probeAuth
  rw [data]
  dsimp only
  by_cases past : authMaxTries < auth.tries + 1
  · rw [if_pos past]
    exact ⟨_,rfl,rfl⟩
  · rw [if_neg past]
    cases proberesp <;> cases ssid <;> exact ⟨_,rfl,rfl⟩

theorem probeAuth_ok {proberesp ssid : Bool} (data : s.authData = some auth) (few : auth.tries < authMaxTries)
    (known : proberesp = true ∨ ssid = true) : (probeAuth proberesp ssid s).2 = none := by
  unfold probeAuth
  rw [data]
  dsimp only
  rw [if_neg (by omega)]
  obtain rfl | rfl := known
  · rfl
  · cases proberesp <;> rfl

theorem free_of_quiet (quiet : ¬busy s = true) : s.authData.all AuthData.done = true ∧ s.assocData = none := by
  unfold busy at quiet
  cases auth : s.authData <;> simp_all

theorem mgdAuth_sound (req : AuthRequest) (a : AuthAnswers) (consistent : Consistent s) (fine : cleanAuth cfg sband hw req a s = true) :
    Consistent (mgdAuth cfg sband hw req a s).1 ∧ ((mgdAuth cfg sband hw req a s).2.isSome = true → Undone s (mgdAuth cfg sband hw req a s).1) := by
  unfold mgdAuth cleanAuth at *
  cases known : req.alg with
  | none => exact ⟨consistent,fun _ => undone_refl s⟩
  | some alg =>
    rw [known,Option.all_some] at fine
    dsimp only at *
    by_cases noWep : alg = .sharedKey ∧ hw.wepTx = false
    · rw [if_pos noWep]
      exact ⟨consistent,fun _ => undone_refl s⟩
    rw [if_neg noWep]
    by_cases noMem : (!a.alloc) = true
    · rw [if_pos noMem]
      exact ⟨consistent,fun _ => undone_refl s⟩
    rw [if_neg noMem]
    have memory := alloc_memory .auth consistent.memory
    by_cases other : busy {s with mem := s.mem.alloc .auth} = true
    · rw [if_pos other]
      exact ⟨⟨consistent.channel,consistent.apart,given_memory memory⟩,fun _ => ⟨.inr rfl,.inr rfl,fun _ member => member,id⟩⟩
    rw [if_neg other]
    have free : s.assocData = none := (free_of_quiet other).2
    have wep : (decide (alg = .sharedKey) && !hw.wepTx) = false := by
      simpa using noWep
    rw [wep,(Bool.not_eq_true _).mp noMem,(Bool.not_eq_true _).mp other,Bool.false_or,Bool.false_or,Bool.false_or,Bool.and_eq_true,
      Bool.not_eq_true'] at fine
    obtain ⟨kept,probed⟩ := fine
    obtain ⟨authData,assocData,own,stas⟩ := startAuth_facts s.mem.next req alg {s with mem := s.mem.alloc .auth} free memory
    generalize startAuth s.mem.next req alg {s with mem := s.mem.alloc .auth} = started at *
    obtain ⟨mem,auth,assoc,-⟩ := @prepConnection_same cfg sband a.setup req.bss false started
    have failed {err} := @prepConnection_error cfg sband a.setup req.bss false started err (.inl (by rw [authData]; rfl))
    have ok := @prepConnection_granted cfg sband a.setup req.bss started
    generalize prepConnection cfg sband a.setup req.bss false started = out at *
    obtain ⟨s',_ | err⟩ := out
    · obtain ⟨alloc,grant⟩ := ok rfl
      rw [alloc,grant] at probed
      have data := auth.trans authData
      have reach := @probeAuth_ok _ _ req.bss.proberesp req.bss.ssid data (Nat.zero_lt_succ 2) (by simpa using probed)
      obtain ⟨_,after,addr⟩ := probeAuth_keeps req.bss.proberesp req.bss.ssid data
      dsimp only at *
      generalize probeAuth req.bss.proberesp req.bss.ssid s' = out at *
      obtain ⟨_,_ | _⟩ := out
      · subst after
        refine ⟨⟨fun _ => rfl,.inr (assoc.trans assocData),?_⟩,nofun⟩
        simpa [held,addr,mem,assoc,assocData] using own
      · cases reach
    obtain ⟨entries,released⟩ := failed rfl
    have off := released kept
    dsimp only at *
    refine ⟨⟨fun holds => ?_,.inl rfl,?_⟩,fun _ => ⟨.inl rfl,.inl (assoc.trans assocData),fun sta member => ?_,fun holds => ?_⟩⟩
    · exact absurd (off.symm.trans holds) Bool.false_ne_true
    · have given := @given_memory _ [] _ own
      simpa [held,clearAuth,mem,assoc,assocData] using given
    · refine stas sta ?_
      rw [← entries]
      exact member
    · exact absurd (off.symm.trans holds) Bool.false_ne_true

theorem startAssoc_facts (addr : Nat) (req : AssocRequest) (s : Sdata) (free : s.assocData = none)
    (memory : Accounted (held s ++ [addr]) s.mem) :
    (startAssoc sband hw addr req s).authData = none ∧
    (∃ data, (startAssoc sband hw addr req s).assocData = some data ∧ data.addr = addr) ∧
    Accounted [addr] (startAssoc sband hw addr req s).mem ∧ ∀ sta ∈ (startAssoc sband hw addr req s).stas, sta ∈ s.stas := by
  have destroyed := destroyAuthData_memory (s.bssid = some req.bss.bssid) memory
  have none : held (destroyAuthData (s.bssid = some req.bss.bssid) s) = [] := by
    simp [held,free]
  rw [none,List.nil_append] at destroyed
  exact ⟨destroyAuthData_authData _ s,⟨_,rfl,rfl⟩,destroyed,fun sta member => destroyAuthData_stas member⟩

theorem mgdAssoc_sound (req : AssocRequest) (a : AuthAnswers) (consistent : Consistent s)
    (fine : cleanAssoc cfg sband hw req a s = true) :
    Consistent (mgdAssoc cfg sband hw req a s).1 ∧
    ((mgdAssoc cfg sband hw req a s).2.isSome = true → Undone s (mgdAssoc cfg sband hw req a s).1) := by
  unfold mgdAssoc cleanAssoc at *
  dsimp only at *
  by_cases noMem : (!a.alloc) = true
  · rw [if_pos noMem]
    exact ⟨consistent,fun _ => undone_refl s⟩
  rw [if_neg noMem]
  have memory := alloc_memory .assoc consistent.memory
  by_cases noSsid : (!req.bss.ssid) = true
  · rw [if_pos noSsid]
    exact ⟨⟨consistent.channel,consistent.apart,given_memory memory⟩,fun _ => ⟨.inr rfl,.inr rfl,fun _ member => member,id⟩⟩
  rw [if_neg noSsid]
  have leaving : Accounted (held (setDisassoc {s with mem := s.mem.alloc .assoc}) ++ [s.mem.next])
      (setDisassoc {s with mem := s.mem.alloc .assoc}).mem := by
    simpa [held] using memory
  have channel (holds : (setDisassoc {s with mem := s.mem.alloc .assoc}).link.chanctx = true) :
      s.link.chanctx = true ∧ s.associated = none := by
    have before := setDisassoc_channel holds
    exact before
  have entries : ∀ sta ∈ (setDisassoc {s with mem := s.mem.alloc .assoc}).stas, sta ∈ s.stas := by
    intro sta member
    have before := setDisassoc_stas member
    exact before
  have authData : (setDisassoc {s with mem := s.mem.alloc .assoc}).authData = s.authData := setDisassoc_authData _
  have assocData : (setDisassoc {s with mem := s.mem.alloc .assoc}).assocData = s.assocData := setDisassoc_assocData _
  generalize setDisassoc {s with mem := s.mem.alloc .assoc} = left at *
  by_cases other : busy left = true
  · rw [if_pos other]
    refine ⟨⟨fun holds => ?_,?_,given_memory leaving⟩,fun _ => ⟨.inr authData,.inr assocData,entries,fun holds => (channel holds).1⟩⟩
    · obtain ⟨before,free⟩ := channel holds
      have owner := consistent.channel before
      unfold owned at *
      rw [authData,assocData]
      rw [free,Option.isSome_none,Bool.or_false] at owner
      rw [owner,Bool.true_or]
    · have apart := consistent.apart
      rw [← authData,← assocData] at apart
      exact apart
  rw [if_neg other]
  have free : left.assocData = none := (free_of_quiet other).2
  rw [(Bool.not_eq_true _).mp noMem,(Bool.not_eq_true _).mp noSsid,(Bool.not_eq_true _).mp other,Bool.false_or,Bool.false_or,Bool.false_or,
    Bool.not_eq_true'] at fine
  obtain ⟨none,⟨_,taken,addr⟩,own,stas⟩ := @startAssoc_facts sband hw s.mem.next req left free leaving
  generalize startAssoc sband hw s.mem.next req left = started at *
  obtain ⟨mem,auth,assoc,-⟩ := @prepConnection_same cfg sband a.setup req.bss true started
  have failed {err} := @prepConnection_error cfg sband a.setup req.bss true started err (.inr (by rw [taken]; rfl))
  generalize prepConnection cfg sband a.setup req.bss true started = out at *
  obtain ⟨_,_ | _⟩ := out
  · dsimp only at *
    refine ⟨⟨fun _ => ?_,.inl (auth.trans none),?_⟩,nofun⟩
    · simp [owned,assoc,taken]
    · simpa [held,addr,mem,auth,none,assoc,taken] using own
  obtain ⟨same,released⟩ := failed rfl
  have off := released fine
  dsimp only at *
  refine ⟨⟨fun holds => ?_,.inr rfl,?_⟩,fun _ => ⟨.inl (auth.trans none),.inl rfl,fun sta member => ?_,fun holds => ?_⟩⟩
  · exact absurd (off.symm.trans holds) Bool.false_ne_true
  · have given := @given_memory _ [] _ own
    simpa [held,clearAssoc,mem,auth,none] using given
  · refine entries sta (stas sta ?_)
    rw [← same]
    exact member
  · exact absurd (off.symm.trans holds) Bool.false_ne_true

end requests

end Mac80211.Mlme

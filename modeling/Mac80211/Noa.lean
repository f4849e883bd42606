import Mac80211.Loops

namespace Mac80211.Noa

open Function (update update_of_ne update_self)

abbrev Index := Fin 4

inductive Fault where
  | divideByZero | ambiguous
deriving DecidableEq

structure Arith where
  time : Int → Int
  near : Int → Int → Int
  s32 : Int → Except Fault Int
  u32 : Int → Except Fault Int

def signed (x : Int) : Int := (x + 2147483648) % 4294967296 - 2147483648

-- The 32 bits of the code.
def machine : Arith where
  time x := x % 4294967296
  near _ start := start
  s32 x := .ok (signed x)
  u32 x := .ok (x % 4294967296)

structure Desc where
  count : Int
  start : Int
  duration : Int
  interval : Int
deriving DecidableEq

structure Data where
  nextTsf : Int
  hasNextTsf : Bool
  absent : Index → Bool
  desc : Index → Desc

structure AttrDesc where
  count : UInt8
  duration : UInt32
  interval : UInt32
  startTime : UInt32

abbrev Attr := Index → AttrDesc

section functions
variable (a : Arith)

def divRoundUp (n d : Int) : Except Fault Int :=
  if d = 0 then .error .divideByZero else do a.s32 ((← a.u32 (n + d - 1)) / d)

def extendNoaDesc (x : Desc) (tsf : Int) : Except Fault (Desc × Bool) := do
  let e ← a.s32 (x.start + x.duration - (tsf + 1))
  if e > 0 then return (x,false)
  let skip ← divRoundUp a (-e) x.interval
  if x.count < 255 then
    if x.count ≤ skip then return ({x with count := 0},false)
    return ({x with count := (x.count - skip) % 256,start := a.time (x.start + skip * x.interval)},true)
  return ({x with start := a.time (x.start + skip * x.interval)},true)

structure Absence where
  desc : Index → Desc
  offset : Int
  ret : Bool

def extendAbsence (tsf : Int) (s : Absence) (i : Index) : Except Fault Absence :=
  if (s.desc i).count = 0 then .ok s
  else do
    let (x,moved) ← extendNoaDesc a (s.desc i) (a.time (tsf + s.offset))
    let desc := update s.desc i x
    let ret := s.ret || moved
    if (← a.s32 (x.start - tsf)) > s.offset then return ⟨desc,s.offset,ret⟩
    let cur ← a.s32 (x.start + x.duration - tsf)
    return ⟨desc,if cur > s.offset then cur else s.offset,ret⟩

def extendAbsentTime (tsf : Int) (desc : Index → Desc) (offset : Int) : Except Fault Absence :=
  (List.finRange 4).foldlM (extendAbsence a tsf) ⟨desc,offset,false⟩

def extendTries (tsf : Int) : Nat → Absence → Except Fault Absence
  | 0,s => .ok s
  | tries + 1,s => do
    let s ← extendAbsentTime a tsf s.desc s.offset
    if s.ret then extendTries tsf tries s else return s

def getNoaAbsentTime (tsf : Int) (desc : Index → Desc) : Except Fault Absence := do
  extendTries a tsf 5 (← extendAbsentTime a tsf desc 0)

-- next_offset is unsigned.
structure Update where
  desc : Index → Desc
  absent : Index → Bool
  hasNextTsf : Bool
  nextOffset : Int

def updateDesc (tsf : Int) (s : Update) (i : Index) : Except Fault Update :=
  if (s.desc i).count = 0 then .ok s
  else do
    let (x,_) ← extendNoaDesc a (s.desc i) tsf
    let start ← a.s32 (x.start - tsf)
    return {
      desc := update s.desc i x
      absent := if start ≤ 0 then update s.absent i true else s.absent
      hasNextTsf := true
      nextOffset := if s.nextOffset > start % 4294967296 then start % 4294967296 else s.nextOffset}

def updateDescs (tsf : Int) (desc : Index → Desc) : Except Fault Update :=
  (List.finRange 4).foldlM (updateDesc a tsf) ⟨desc,fun _ => false,false,2147483647⟩

def updateP2pNoa (d : Data) (tsf : Int) : Except Fault Data := do
  let u ← updateDescs a tsf d.desc
  if (List.finRange 4).any u.absent then
    let s ← getNoaAbsentTime a tsf u.desc
    return ⟨a.time (tsf + s.offset),u.hasNextTsf,u.absent,s.desc⟩
  return ⟨a.time (tsf + u.nextOffset),u.hasNextTsf,u.absent,u.desc⟩

def noDesc : Desc := ⟨0,0,0,0⟩

def stored (tsf : Int) (x : AttrDesc) : Desc :=
  ⟨x.count.toNat,a.near tsf x.startTime.toNat,x.duration.toNat,x.interval.toNat⟩

-- What ieee80211_parse_p2p_noa goes on with; the others are invalid.
def empty (x : AttrDesc) : Bool := x.count = 0 || x.duration = 0
def overlapping (x : AttrDesc) : Bool := x.count > 1 && x.interval < x.duration

def parseDesc (attr : Attr) (tsf : Int) (s : (Index → Desc) × Nat) (i : Index) : Except Fault ((Index → Desc) × Nat) :=
  if empty (attr i) then .ok s
  else if overlapping (attr i) then .ok (update s.1 i (stored a tsf (attr i)),s.2)
  else do
    let (x,_) ← extendNoaDesc a (stored a tsf (attr i)) tsf
    return (update s.1 i x,s.2 + 1)

def parseDescs (attr : Attr) (tsf : Int) : Except Fault ((Index → Desc) × Nat) :=
  (List.finRange 4).foldlM (parseDesc a attr tsf) (fun _ => noDesc,0)

structure Step where
  before : Data
  tsf : Int
  after : Data

def updates : Data → List Int → Except Fault (List Step)
  | _,[] => .ok []
  | d,tsf :: rest => do
    let next ← updateP2pNoa a d tsf
    return ⟨d,tsf,next⟩ :: (← updates next rest)

-- The data is updated if a descriptor is valid, then come later updates.
def run (attr : Attr) (tsf : Int) (later : List Int) : Except Fault (List Step) := do
  let (desc,ret) ← parseDescs a attr tsf
  updates a ⟨0,false,fun _ => false,desc⟩ (if ret = 0 then later else tsf :: later)

end functions

section keeps

theorem bind_ok {f : α → Except Fault β} : (m >>= f) = .ok r ↔ ∃ v, m = .ok v ∧ f v = .ok r := by
  cases m with
  | error =>
    constructor
    · intro done
      cases done
    · rintro ⟨v,done,_⟩
      cases done
  | ok v =>
    constructor
    · exact fun done => ⟨v,rfl,done⟩
    · rintro ⟨_,same,done⟩
      cases same
      exact done

theorem extendNoaDesc_cases (ran : extendNoaDesc a x tsf = .ok (x',moved)) :
    ∃ e, a.s32 (x.start + x.duration - (tsf + 1)) = .ok e ∧
      ((e > 0 ∧ x' = x) ∨ (e ≤ 0 ∧ ∃ skip, divRoundUp a (-e) x.interval = .ok skip ∧
        ((x.count < 255 ∧ x.count ≤ skip ∧ x' = {x with count := 0}) ∨ (x.count < 255 ∧ skip < x.count ∧ x' = {x with
            count := (x.count - skip) % 256
            start := a.time (x.start + skip * x.interval)}) ∨
          (255 ≤ x.count ∧ x' = {x with start := a.time (x.start + skip * x.interval)})))) := by
  obtain ⟨e,read,ran⟩ := bind_ok.mp ran
  refine ⟨e,read,?_⟩
  by_cases going : e > 0
  · rw [if_pos going] at ran
    cases ran
    exact .inl ⟨going,rfl⟩
  rw [if_neg going] at ran
  obtain ⟨skip,divided,ran⟩ := bind_ok.mp ran
  refine .inr ⟨by omega,skip,divided,?_⟩
  by_cases finite : x.count < 255
  · rw [if_pos finite] at ran
    split_ifs at ran with ended
    · cases ran
      exact .inl ⟨finite,ended,rfl⟩
    · cases ran
      exact .inr (.inl ⟨finite,by omega,rfl⟩)
  · rw [if_neg finite] at ran
    cases ran
    exact .inr (.inr ⟨by omega,rfl⟩)

theorem extendNoaDesc_same (ran : extendNoaDesc a x tsf = .ok (x',moved)) : x'.duration = x.duration ∧ x'.interval = x.interval := by
  obtain ⟨_,_,⟨_,rfl⟩ | ⟨_,_,_,⟨_,_,rfl⟩ | ⟨_,_,rfl⟩ | ⟨_,rfl⟩⟩⟩ := extendNoaDesc_cases ran <;> exact ⟨rfl,rfl⟩

def Extends (a : Arith) (holds : Index → Desc → Prop) : Prop :=
  ∀ i x tsf x' moved, holds i x → x.count ≠ 0 → extendNoaDesc a x tsf = .ok (x',moved) → holds i x'


theorem all_update (holds : Index → Desc → Prop) (i : Index) (all : ∀ i, holds i (desc i)) (here : holds i x) :
    ∀ j, holds j (update desc i x j) := by
  intro j
  by_cases same : j = i
  · subst same
    rwa [update_self]
  · rw [update_of_ne same]
    exact all j

section
variable (extends_ : Extends a holds)
include extends_

theorem updateDesc_keeps (all : ∀ i, holds i (s.desc i))
    (ran : updateDesc a tsf s i = .ok t) : ∀ i, holds i (t.desc i) := by
  unfold updateDesc at ran
  split_ifs at ran with none_left
  · cases ran
    exact all
  · obtain ⟨⟨x,moved⟩,extended,ran⟩ := bind_ok.mp ran
    obtain ⟨_,_,ran⟩ := bind_ok.mp ran
    cases ran
    exact all_update holds i all (extends_ i _ _ x moved (all i) none_left extended)

theorem updateDescs_keeps (all : ∀ i, holds i (desc i)) (ran : updateDescs a tsf desc = .ok u) : ∀ i, holds i (u.desc i) :=
  Loops.exceptFold_keeps (fun s : Update => ∀ i, holds i (s.desc i)) (List.finRange 4) all
    (fun _ _ _ _ all step => updateDesc_keeps extends_ all step) ran

theorem extendAbsence_keeps (all : ∀ i, holds i (s.desc i))
    (ran : extendAbsence a tsf s i = .ok t) : ∀ i, holds i (t.desc i) := by
  unfold extendAbsence at ran
  split_ifs at ran with none_left
  · cases ran
    exact all
  · obtain ⟨⟨x,moved⟩,extended,ran⟩ := bind_ok.mp ran
    have kept := all_update holds i all (extends_ i _ _ x moved (all i) none_left extended)
    obtain ⟨_,_,ran⟩ := bind_ok.mp ran
    split_ifs at ran
    · cases ran
      exact kept
    · obtain ⟨_,_,ran⟩ := bind_ok.mp ran
      cases ran
      exact kept

theorem extendAbsentTime_keeps (all : ∀ i, holds i (desc i))
    (ran : extendAbsentTime a tsf desc offset = .ok s) : ∀ i, holds i (s.desc i) :=
  Loops.exceptFold_keeps (fun s : Absence => ∀ i, holds i (s.desc i)) (List.finRange 4) all
    (fun _ _ _ _ all step => extendAbsence_keeps extends_ all step) ran

theorem extendTries_keeps (tries : Nat) (all : ∀ i, holds i (s.desc i))
    (ran : extendTries a tsf tries s = .ok t) : ∀ i, holds i (t.desc i) := by
  induction tries generalizing s with
  | zero =>
    cases ran
    exact all
  | succ tries ih =>
    obtain ⟨u,first,ran⟩ := bind_ok.mp ran
    have kept := extendAbsentTime_keeps extends_ all first
    split_ifs at ran
    · exact ih kept ran
    · cases ran
      exact kept

theorem updateP2pNoa_keeps (all : ∀ i, holds i (d.desc i))
    (ran : updateP2pNoa a d tsf = .ok next) : ∀ i, holds i (next.desc i) := by
  obtain ⟨u,updated,ran⟩ := bind_ok.mp ran
  have kept := updateDescs_keeps extends_ all updated
  split_ifs at ran
  · obtain ⟨s,extended,ran⟩ := bind_ok.mp ran
    obtain ⟨_,one,more⟩ := bind_ok.mp extended
    cases ran
    exact extendTries_keeps extends_ 5 (extendAbsentTime_keeps extends_ kept one) more
  · cases ran
    exact kept

theorem updates_keeps (later : List Int) (all : ∀ i, holds i (d.desc i))
    (ran : updates a d later = .ok steps) : ∀ s ∈ steps, ∀ i, holds i (s.before.desc i) := by
  induction later generalizing d steps with
  | nil =>
    cases ran
    exact nofun
  | cons tsf rest ih =>
    obtain ⟨_,updated,ran⟩ := bind_ok.mp ran
    obtain ⟨_,rest_ran,ran⟩ := bind_ok.mp ran
    cases ran
    intro s member
    cases List.mem_cons.mp member with
    | inl first =>
      rw [first]
      exact all
    | inr later => exact ih (updateP2pNoa_keeps extends_ all updated) rest_ran s later

end

theorem parseDescs_keeps (extends_ : Extends a holds) (none_ : ∀ i, holds i noDesc)
    (store : ∀ i, empty (attr i) = false → holds i (stored a tsf (attr i)))
    (counted : ∀ i, empty (attr i) = false → (stored a tsf (attr i)).count ≠ 0)
    (ran : parseDescs a attr tsf = .ok (desc,ret)) : ∀ i, holds i (desc i) := by
  refine Loops.exceptFold_keeps (fun s : (Index → Desc) × Nat => ∀ i, holds i (s.1 i)) (List.finRange 4) none_ ?_ ran
  intro s i _ t all step
  unfold parseDesc at step
  split_ifs at step with unused invalid
  · cases step
    exact all
  · cases step
    exact all_update holds i all (store i (Bool.eq_false_iff.mpr unused))
  · obtain ⟨⟨x,moved⟩,extended,step⟩ := bind_ok.mp step
    cases step
    have used : empty (attr i) = false := Bool.eq_false_iff.mpr unused
    exact all_update holds i all (extends_ i _ _ x moved (store i used) (counted i used) extended)

def Parsed (a : Arith) (attr : Attr) (tsf : Int) (i : Index) (x : Desc) : Prop :=
  (empty (attr i) = true ∧ x = noDesc) ∨ (empty (attr i) = false ∧ overlapping (attr i) = true ∧ x = stored a tsf (attr i)) ∨
    (empty (attr i) = false ∧ overlapping (attr i) = false ∧ ∃ moved, extendNoaDesc a (stored a tsf (attr i)) tsf = .ok (x,moved))

theorem parseDesc_parsed (before : s.1 i = noDesc)
    (ran : parseDesc a attr tsf s i = .ok t) : Parsed a attr tsf i (t.1 i) ∧ ∀ j, j ≠ i → t.1 j = s.1 j := by
  unfold parseDesc at ran
  split_ifs at ran with unused invalid
  · cases ran
    exact ⟨.inl ⟨unused,before⟩,fun _ _ => rfl⟩
  · cases ran
    refine ⟨.inr (.inl ⟨Bool.eq_false_iff.mpr unused,invalid,update_self ..⟩),?_⟩
    exact fun j other => update_of_ne other ..
  · obtain ⟨⟨x,moved⟩,extended,ran⟩ := bind_ok.mp ran
    cases ran
    refine ⟨.inr (.inr ⟨Bool.eq_false_iff.mpr unused,Bool.eq_false_iff.mpr invalid,moved,?_⟩),?_⟩
    · show extendNoaDesc a _ tsf = .ok (update s.1 i x i,moved)
      rw [update_self,extended]
    · exact fun j other => update_of_ne other ..

theorem parseDescs_parsed (ran : parseDescs a attr tsf = .ok (desc,ret)) (i : Index) :
    Parsed a attr tsf i (desc i) := by
  have walk : ∀ (is : List Index) (s t : (Index → Desc) × Nat), is.Nodup → (∀ i ∈ is, s.1 i = noDesc) →
      is.foldlM (parseDesc a attr tsf) s = .ok t → (∀ i ∈ is, Parsed a attr tsf i (t.1 i)) ∧ ∀ i, i ∉ is → t.1 i = s.1 i := by
    intro is
    induction is with
    | nil =>
      intro s t _ _ ran
      cases ran
      exact ⟨nofun,fun _ _ => rfl⟩
    | cons k rest ih =>
      intro s t distinct fresh ran
      obtain ⟨fresh_k,distinct⟩ := List.nodup_cons.mp distinct
      obtain ⟨u,first,ran⟩ := Loops.exceptFold_cons.mp ran
      obtain ⟨parsed,others⟩ := parseDesc_parsed (fresh k (List.mem_cons_self ..)) first
      have later : ∀ i ∈ rest, u.1 i = noDesc := by
        intro i member
        rw [others i (fun same => fresh_k (same ▸ member))]
        exact fresh i (List.mem_cons_of_mem _ member)
      obtain ⟨all,kept⟩ := ih u t distinct later ran
      refine ⟨?_,?_⟩
      · intro i member
        cases List.mem_cons.mp member with
        | inl here =>
          subst here
          rw [kept i fresh_k]
          exact parsed
        | inr there => exact all i there
      · intro i outside
        obtain ⟨other,outside⟩ := not_or.mp (fun either => outside (List.mem_cons.mpr either))
        rw [kept i outside,others i other]
  exact (walk (List.finRange 4) _ _ (List.nodup_finRange 4) (fun _ _ => rfl) ran).1 i (List.mem_finRange i)

theorem run_ok : run a attr tsf later = .ok steps ↔
    ∃ desc ret, parseDescs a attr tsf = .ok (desc,ret) ∧
      updates a ⟨0,false,fun _ => false,desc⟩ (if ret = 0 then later else tsf :: later) = .ok steps :=
  bind_ok.trans Prod.exists

end keeps

section division

def Nonzero (desc : Index → Desc) : Prop := ∀ i, (desc i).count ≠ 0 → (desc i).interval ≠ 0

theorem divRoundUp_machine (n : Int) (nonzero : d ≠ 0) : ∃ v, divRoundUp machine n d = .ok v := ⟨_,if_neg nonzero⟩

theorem extendNoaDesc_returns (nonzero : x.interval ≠ 0) (tsf : Int) : ∃ r, extendNoaDesc machine x tsf = .ok r := by
  obtain ⟨skip,divided⟩ := divRoundUp_machine (-(signed (x.start + x.duration - (tsf + 1)))) nonzero
  show ∃ r, (if signed (x.start + x.duration - (tsf + 1)) > 0 then _ else divRoundUp machine (-(signed (x.start + x.duration - (tsf + 1)))) _ >>=
    fun skip => _) = Except.ok r
  rw [divided]
  by_cases going : signed (x.start + x.duration - (tsf + 1)) > 0
  · exact ⟨_,if_pos going⟩
  · rw [if_neg going]
    by_cases finite : x.count < 255
    · by_cases ended : x.count ≤ skip
      · exact ⟨_,(if_pos finite).trans (if_pos ended)⟩
      · exact ⟨_,(if_pos finite).trans (if_neg ended)⟩
    · exact ⟨_,if_neg finite⟩

theorem nonzero_extends (a : Arith) : Extends a fun _ x => x.count ≠ 0 → x.interval ≠ 0 := by
  intro i x _ _ _ holds counted ran _
  rw [(extendNoaDesc_same ran).2]
  exact holds counted

theorem updateDescs_returns (nonzero : Nonzero desc) (tsf : Int) : ∃ u, updateDescs machine tsf desc = .ok u := by
  obtain ⟨u,ran,_⟩ := Loops.exceptFold_returns (f := updateDesc machine tsf) (fun s : Update => Nonzero s.desc) (List.finRange 4)
    (s := ⟨desc,fun _ => false,false,2147483647⟩) nonzero (by
      intro s i nonzero
      unfold updateDesc
      by_cases none_left : (s.desc i).count = 0
      · exact ⟨s,if_pos none_left,nonzero⟩
      · rw [if_neg none_left]
        obtain ⟨⟨x,moved⟩,extended⟩ := extendNoaDesc_returns (nonzero i none_left) tsf
        rw [extended]
        exact ⟨_,rfl,all_update (fun _ x => x.count ≠ 0 → x.interval ≠ 0) i nonzero
          (nonzero_extends machine i _ _ x moved (nonzero i) none_left extended)⟩)
  exact ⟨u,ran⟩

theorem extendAbsentTime_returns (nonzero : Nonzero desc) (tsf offset : Int) : ∃ s, extendAbsentTime machine tsf desc offset = .ok s := by
  obtain ⟨s,ran,_⟩ := Loops.exceptFold_returns (f := extendAbsence machine tsf) (fun s : Absence => Nonzero s.desc) (List.finRange 4)
    (s := ⟨desc,offset,false⟩) nonzero (by
      intro s i nonzero
      unfold extendAbsence
      by_cases none_left : (s.desc i).count = 0
      · exact ⟨s,if_pos none_left,nonzero⟩
      · rw [if_neg none_left]
        obtain ⟨⟨x,moved⟩,extended⟩ := extendNoaDesc_returns (nonzero i none_left) (machine.time (tsf + s.offset))
        have kept := all_update (fun _ x => x.count ≠ 0 → x.interval ≠ 0) i nonzero
          (nonzero_extends machine i _ _ x moved (nonzero i) none_left extended)
        rw [extended]
        by_cases ahead : signed (x.start - tsf) > s.offset
        · exact ⟨_,if_pos ahead,kept⟩
        · exact ⟨_,if_neg ahead,kept⟩)
  exact ⟨s,ran⟩

theorem extendTries_returns (tries : Nat) (nonzero : Nonzero s.desc) (tsf : Int) :
    ∃ t, extendTries machine tsf tries s = .ok t := by
  induction tries generalizing s with
  | zero => exact ⟨s,rfl⟩
  | succ tries ih =>
    obtain ⟨u,first⟩ := extendAbsentTime_returns nonzero tsf s.offset
    have kept := extendAbsentTime_keeps (nonzero_extends machine) nonzero first
    unfold extendTries
    rw [first]
    show ∃ t, (if u.ret = true then extendTries machine tsf tries u else .ok u) = .ok t
    split_ifs
    · exact ih kept
    · exact ⟨u,rfl⟩

theorem updateP2pNoa_returns (nonzero : Nonzero d.desc) (tsf : Int) : ∃ next, updateP2pNoa machine d tsf = .ok next := by
  obtain ⟨u,updated⟩ := updateDescs_returns nonzero tsf
  have kept := updateDescs_keeps (nonzero_extends machine) nonzero updated
  obtain ⟨s,one⟩ := extendAbsentTime_returns kept tsf 0
  obtain ⟨t,more⟩ := extendTries_returns 5 (extendAbsentTime_keeps (nonzero_extends machine) kept one) tsf
  unfold updateP2pNoa getNoaAbsentTime
  rw [updated]
  show ∃ next, (if (List.finRange 4).any u.absent = true then (extendAbsentTime machine tsf u.desc 0 >>= extendTries machine tsf 5) >>= _
    else _) = .ok next
  rw [one]
  split_ifs
  · show ∃ next, (extendTries machine tsf 5 s >>= _) = .ok next
    rw [more]
    exact ⟨_,rfl⟩
  · exact ⟨_,rfl⟩

theorem updates_returns (later : List Int) (nonzero : Nonzero d.desc) : ∃ steps, updates machine d later = .ok steps := by
  induction later generalizing d with
  | nil => exact ⟨[],rfl⟩
  | cons tsf rest ih =>
    obtain ⟨next,updated⟩ := updateP2pNoa_returns nonzero tsf
    obtain ⟨steps,more⟩ := ih (updateP2pNoa_keeps (nonzero_extends machine) nonzero updated)
    unfold updates
    rw [updated]
    show ∃ steps, (updates machine next rest >>= _) = .ok steps
    rw [more]
    exact ⟨_,rfl⟩

def sound (x : AttrDesc) : Bool := empty x || (x.interval != 0 && !overlapping x)

def refused (x : AttrDesc) : Bool := empty x || overlapping x

def Safe (attr : Attr) : Prop :=
  ∀ (tsf : UInt32) (later : List UInt32), ∃ steps, run machine attr tsf.toNat (later.map fun t => (t.toNat : Int)) = .ok steps ∧
    ∀ s ∈ steps, ∀ i, refused (attr i) = true → (s.before.desc i).count = 0

theorem parseDescs_returns (all : ∀ i, sound (attr i) = true) (tsf : Int) : ∃ r, parseDescs machine attr tsf = .ok r := by
  obtain ⟨r,ran,_⟩ := Loops.exceptFold_returns (f := parseDesc machine attr tsf) (fun _ => True) (List.finRange 4)
    (s := (fun _ => noDesc,0)) trivial (by
      intro s i _
      unfold parseDesc
      by_cases unused : empty (attr i) = true
      · exact ⟨s,if_pos unused,trivial⟩
      have fine := all i
      unfold sound at fine
      rw [Bool.eq_false_iff.mpr unused,Bool.false_or,Bool.and_eq_true,Bool.not_eq_true'] at fine
      have nonzero : (stored machine tsf (attr i)).interval ≠ 0 := by
        intro zero
        have : (attr i).interval.toNat = 0 := Int.ofNat.inj zero
        exact absurd (UInt32.toNat_inj.mp this) (by simpa using fine.1)
      obtain ⟨⟨x,_⟩,extended⟩ := extendNoaDesc_returns nonzero tsf
      rw [if_neg unused,fine.2,extended]
      exact ⟨_,rfl,trivial⟩)
  exact ⟨r,ran⟩

theorem used_extends (attr : Attr) : Extends machine fun i x => refused (attr i) = true → x.count = 0 := by
  intro i x _ _ _ holds counted _ unfit
  exact absurd (holds unfit) counted

theorem unused_zero (used : empty x = false) : (stored a tsf x).count ≠ 0 := by
  intro zero
  have count : x.count.toNat = 0 := Int.ofNat.inj zero
  have : x.count = 0 := UInt8.toNat_inj.mp count
  unfold empty at used
  simp [this] at used

theorem updates_first
    (ran : updates a d (tsf :: rest) = .ok steps) : ∃ s ∈ steps, s.before = d := by
  obtain ⟨_,_,ran⟩ := bind_ok.mp ran
  obtain ⟨_,_,ran⟩ := bind_ok.mp ran
  cases ran
  exact ⟨_,List.mem_cons_self ..,rfl⟩

theorem ends_now (start duration : UInt32) : signed (start.toNat + duration.toNat - ((start + duration - 1).toNat + 1)) = 0 := by
  have wrapped : (start + duration - 1).toNat = (start.toNat + duration.toNat + 4294967295) % 4294967296 := by
    rw [UInt32.toNat_sub,UInt32.toNat_add]
    have one : (1 : UInt32).toNat = 1 := rfl
    omega
  unfold signed
  omega

theorem noa_safe_iff (attr : Attr) : Safe attr ↔ ∀ i, sound (attr i) = true := by
  constructor
  · intro safe i
    obtain ⟨steps,ran,unused⟩ := safe ((attr i).startTime + (attr i).duration - 1) [(attr i).startTime + (attr i).duration - 1]
    obtain ⟨desc,ret,parsed,ran⟩ := run_ok.mp ran
    unfold sound
    rcases parseDescs_parsed parsed i with ⟨none_,_⟩ | ⟨used,overlap,same⟩ | ⟨used,apart,_,extended⟩
    · rw [none_,Bool.true_or]
    · obtain ⟨s,member,before⟩ : ∃ s ∈ steps, s.before = ⟨0,false,fun _ => false,desc⟩ := by
        by_cases none_ : ret = 0
        · rw [if_pos none_] at ran
          exact updates_first ran
        · rw [if_neg none_] at ran
          exact updates_first ran
      have zero := unused s member i (by unfold refused; rw [overlap,Bool.or_true])
      rw [before] at zero
      exact absurd ((congrArg Desc.count same).symm.trans zero) (unused_zero used)
    rw [used,apart,Bool.false_or,Bool.not_false,Bool.and_true,bne_iff_ne]
    intro zero
    have interval : (stored machine ((attr i).startTime + (attr i).duration - 1).toNat (attr i)).interval = 0 := by
      show ((attr i).interval.toNat : Int) = 0
      rw [zero]
      rfl
    obtain ⟨e,read,⟨ahead,_⟩ | ⟨_,_,divided,_⟩⟩ := extendNoaDesc_cases extended
    · cases read
      exact absurd ahead (Int.not_lt.mpr (Int.le_of_eq (ends_now _ _)))
    · rw [interval] at divided
      cases divided
  intro all tsf later
  obtain ⟨⟨desc,ret⟩,parsed⟩ := parseDescs_returns all tsf.toNat
  have apart : ∀ i, empty (attr i) = false → (attr i).interval ≠ 0 ∧ overlapping (attr i) = false := by
    intro i used
    have fine := all i
    unfold sound at fine
    rwa [used,Bool.false_or,Bool.and_eq_true,bne_iff_ne,Bool.not_eq_true'] at fine
  have counted : ∀ i, empty (attr i) = false → (stored machine tsf.toNat (attr i)).count ≠ 0 := fun i => unused_zero
  have nonzero : Nonzero desc := by
    refine parseDescs_keeps (nonzero_extends machine) (fun _ counted => absurd rfl counted) ?_ counted parsed
    intro i used _ zero
    exact (apart i used).1 (UInt32.toNat_inj.mp (Int.ofNat.inj zero))
  have used : ∀ i, refused (attr i) = true → (desc i).count = 0 := by
    refine parseDescs_keeps (used_extends attr) (fun _ _ => rfl) ?_ counted parsed
    intro i used unfit
    unfold refused at unfit
    rw [used,(apart i used).2] at unfit
    cases unfit
  obtain ⟨steps,ran⟩ := updates_returns
    (if ret = 0 then later.map fun t => (t.toNat : Int) else tsf.toNat :: later.map fun t => (t.toNat : Int))
    (d := ⟨0,false,fun _ => false,desc⟩) nonzero
  exact ⟨steps,run_ok.mpr ⟨desc,ret,parsed,ran⟩,updates_keeps (used_extends attr) _ used ran⟩

def absentDesc : AttrDesc := ⟨0,0,0,0⟩

def firstOnly (desc : AttrDesc) : Attr := update (fun _ => absentDesc) 0 desc

def singleAbsence : Attr := firstOnly ⟨1,100,0,1000⟩

theorem single_absence_divides : ¬ Safe singleAbsence := by
  intro safe
  obtain ⟨_,ran,_⟩ := safe 2000 []
  have stopped : run machine singleAbsence 2000 [] = .error .divideByZero := rfl
  cases stopped.symm.trans ran

end division

end Mac80211.Noa

import Mac80211.Noa
import Mathlib.Tactic.Linarith

namespace Mac80211.Noa

open Function (update update_of_ne update_self)

-- A difference that does not fit into 32 bits is ambiguous.
def exact : Arith where
  time x := x
  near tsf start := tsf + signed (start - tsf)
  s32 x := if -2147483648 < x ∧ x < 2147483648 then .ok x else .error .ambiguous
  u32 x := if 0 ≤ x ∧ x < 4294967296 then .ok x else .error .ambiguous

def wrap (x : Desc) : Desc := {x with start := x.start % 4294967296}

def wrapData (d : Data) : Data := {d with nextTsf := d.nextTsf % 4294967296,desc := fun i => wrap (d.desc i)}

def wrapStep (s : Step) : Step := ⟨wrapData s.before,s.tsf % 4294967296,wrapData s.after⟩

section follows

theorem exact_s32 (read : exact.s32 y = .ok v) : v = y ∧ -2147483648 < y ∧ y < 2147483648 := by
  unfold exact at read
  dsimp only at read
  split_ifs at read with fits
  cases read
  exact ⟨rfl,fits⟩

theorem exact_u32 (read : exact.u32 y = .ok v) : v = y ∧ 0 ≤ y ∧ y < 4294967296 := by
  unfold exact at read
  dsimp only at read
  split_ifs at read with fits
  cases read
  exact ⟨rfl,fits⟩

theorem s32_follows (same : z % 4294967296 = y % 4294967296) (read : exact.s32 y = .ok v) : machine.s32 z = .ok v := by
  obtain ⟨rfl,_,_⟩ := exact_s32 read
  show Except.ok (signed z) = .ok v
  unfold signed
  congr 1
  omega

theorem divRoundUp_exact (divided : divRoundUp exact n d = .ok skip) :
    d ≠ 0 ∧ skip = (n + d - 1) / d ∧ divRoundUp machine n d = .ok skip := by
  unfold divRoundUp at divided ⊢
  split_ifs at divided with zero
  obtain ⟨_,read,divided⟩ := bind_ok.mp divided
  obtain ⟨rfl,low,high⟩ := exact_u32 read
  refine ⟨zero,(exact_s32 divided).1,?_⟩
  rw [if_neg zero]
  show machine.s32 ((n + d - 1) % 4294967296 / d) = .ok skip
  rw [Int.emod_eq_of_lt low high]
  exact s32_follows rfl divided

theorem extendNoaDesc_follows (same : t % 4294967296 = tsf % 4294967296) (ran : extendNoaDesc exact x tsf = .ok (x',moved)) :
    extendNoaDesc machine (wrap x) t = .ok (wrap x',moved) := by
  obtain ⟨e,read,ran⟩ := bind_ok.mp ran
  have read' : machine.s32 ((wrap x).start + (wrap x).duration - (t + 1)) = .ok e := by
    refine s32_follows ?_ read
    show (x.start % 4294967296 + x.duration - (t + 1)) % 4294967296 = _
    omega
  refine bind_ok.mpr ⟨e,read',?_⟩
  by_cases going : e > 0
  · rw [if_pos going] at ran ⊢
    cases ran
    rfl
  rw [if_neg going] at ran ⊢
  obtain ⟨skip,divided,ran⟩ := bind_ok.mp ran
  refine bind_ok.mpr ⟨skip,(divRoundUp_exact divided).2.2,?_⟩
  have later : machine.time ((wrap x).start + skip * (wrap x).interval) = (x.start + skip * x.interval) % 4294967296 := Int.emod_add_emod ..
  by_cases finite : x.count < 255
  · rw [if_pos finite] at ran
    refine (if_pos finite).trans ?_
    by_cases ended : x.count ≤ skip
    · rw [if_pos ended] at ran
      cases ran
      exact if_pos ended
    · rw [if_neg ended] at ran
      cases ran
      refine (if_neg ended).trans ?_
      rw [later]
      rfl
  · rw [if_neg finite] at ran
    cases ran
    refine (if_neg finite).trans ?_
    rw [later]
    rfl

def wrapAbsence (s : Absence) : Absence := {s with desc := fun i => wrap (s.desc i)}
def wrapUpdate (s : Update) : Update := {s with desc := fun i => wrap (s.desc i)}

theorem wrap_update (desc : Index → Desc) (i : Index) (x : Desc) :
    update (fun i => wrap (desc i)) i (wrap x) = fun j => wrap (update desc i x j) := by
  funext j
  by_cases same : j = i
  · subst same
    rw [update_self,update_self]
  · rw [update_of_ne same,update_of_ne same]

theorem extendAbsence_follows (s : Absence) (i : Index) (next : Absence) (ran : extendAbsence exact tsf s i = .ok next) :
    extendAbsence machine (tsf % 4294967296) (wrapAbsence s) i = .ok (wrapAbsence next) := by
  unfold extendAbsence at ran ⊢
  by_cases none_left : (s.desc i).count = 0
  · rw [if_pos none_left] at ran
    cases ran
    exact if_pos none_left
  rw [if_neg none_left] at ran
  refine (if_neg none_left).trans ?_
  obtain ⟨⟨x,moved⟩,extended,ran⟩ := bind_ok.mp ran
  have now : machine.time (tsf % 4294967296 + s.offset) % 4294967296 = exact.time (tsf + s.offset) % 4294967296 := by
    show (tsf % 4294967296 + s.offset) % 4294967296 % 4294967296 = (tsf + s.offset) % 4294967296
    omega
  refine bind_ok.mpr ⟨(wrap x,moved),extendNoaDesc_follows now extended,?_⟩
  obtain ⟨start,read,ran⟩ := bind_ok.mp ran
  have read' : machine.s32 ((wrap x).start - tsf % 4294967296) = .ok start := by
    refine s32_follows ?_ read
    show (x.start % 4294967296 - tsf % 4294967296) % 4294967296 = _
    omega
  refine bind_ok.mpr ⟨start,read',?_⟩
  by_cases ahead : start > s.offset
  · rw [if_pos ahead] at ran
    cases ran
    refine (if_pos ahead).trans ?_
    show Except.ok (Absence.mk (update (fun i => wrap (s.desc i)) i (wrap x)) s.offset (s.ret || moved)) = _
    rw [wrap_update]
    rfl
  rw [if_neg ahead] at ran
  refine (if_neg ahead).trans ?_
  obtain ⟨cur,read,ran⟩ := bind_ok.mp ran
  cases ran
  have read' : machine.s32 ((wrap x).start + (wrap x).duration - tsf % 4294967296) = .ok cur := by
    refine s32_follows ?_ read
    show (x.start % 4294967296 + x.duration - tsf % 4294967296) % 4294967296 = _
    omega
  refine bind_ok.mpr ⟨cur,read',?_⟩
  show Except.ok (Absence.mk (update (fun i => wrap (s.desc i)) i (wrap x)) _ (s.ret || moved)) = _
  rw [wrap_update]
  rfl

theorem extendAbsentTime_follows (ran : extendAbsentTime exact tsf desc offset = .ok s) :
    extendAbsentTime machine (tsf % 4294967296) (fun i => wrap (desc i)) offset = .ok (wrapAbsence s) :=
  Loops.exceptFold_follows wrapAbsence (List.finRange 4) extendAbsence_follows ran

theorem extendTries_follows (tries : Nat) (ran : extendTries exact tsf tries s = .ok next) :
    extendTries machine (tsf % 4294967296) tries (wrapAbsence s) = .ok (wrapAbsence next) := by
  induction tries generalizing s with
  | zero =>
    cases ran
    rfl
  | succ tries ih =>
    obtain ⟨u,first,ran⟩ := bind_ok.mp ran
    refine bind_ok.mpr ⟨wrapAbsence u,extendAbsentTime_follows first,?_⟩
    by_cases again : u.ret = true
    · rw [if_pos again] at ran
      exact (if_pos again).trans (ih ran)
    · rw [if_neg again] at ran
      cases ran
      exact if_neg again

theorem updateDesc_follows (s : Update) (i : Index) (next : Update) (ran : updateDesc exact tsf s i = .ok next) :
    updateDesc machine (tsf % 4294967296) (wrapUpdate s) i = .ok (wrapUpdate next) := by
  unfold updateDesc at ran ⊢
  by_cases none_left : (s.desc i).count = 0
  · rw [if_pos none_left] at ran
    cases ran
    exact if_pos none_left
  rw [if_neg none_left] at ran
  refine (if_neg none_left).trans ?_
  obtain ⟨⟨x,moved⟩,extended,ran⟩ := bind_ok.mp ran
  refine bind_ok.mpr ⟨(wrap x,moved),extendNoaDesc_follows (Int.emod_emod_of_dvd _ (Int.dvd_refl _)) extended,?_⟩
  obtain ⟨start,read,ran⟩ := bind_ok.mp ran
  cases ran
  have read' : machine.s32 ((wrap x).start - tsf % 4294967296) = .ok start := by
    refine s32_follows ?_ read
    show (x.start % 4294967296 - tsf % 4294967296) % 4294967296 = _
    omega
  refine bind_ok.mpr ⟨start,read',?_⟩
  show Except.ok (Update.mk (update (fun i => wrap (s.desc i)) i (wrap x)) _ true _) = _
  rw [wrap_update]
  rfl

theorem updateP2pNoa_follows (ran : updateP2pNoa exact d tsf = .ok next) :
    updateP2pNoa machine (wrapData d) (tsf % 4294967296) = .ok (wrapData next) := by
  obtain ⟨u,updated,ran⟩ := bind_ok.mp ran
  have updated' : updateDescs machine (tsf % 4294967296) (wrapData d).desc = .ok (wrapUpdate u) :=
    Loops.exceptFold_follows wrapUpdate (List.finRange 4) updateDesc_follows updated
  refine bind_ok.mpr ⟨wrapUpdate u,updated',?_⟩
  by_cases absent : (List.finRange 4).any u.absent = true
  · rw [if_pos absent] at ran
    refine (if_pos absent).trans ?_
    obtain ⟨s,extended,ran⟩ := bind_ok.mp ran
    obtain ⟨first,one,more⟩ := bind_ok.mp extended
    cases ran
    refine bind_ok.mpr ⟨wrapAbsence s,bind_ok.mpr ⟨wrapAbsence first,extendAbsentTime_follows one,extendTries_follows 5 more⟩,?_⟩
    have next : machine.time (tsf % 4294967296 + s.offset) = (tsf + s.offset) % 4294967296 := Int.emod_add_emod ..
    show Except.ok (Data.mk (machine.time (tsf % 4294967296 + s.offset)) u.hasNextTsf u.absent _) = _
    rw [next]
    rfl
  · rw [if_neg absent] at ran
    cases ran
    refine (if_neg absent).trans ?_
    have next : machine.time (tsf % 4294967296 + u.nextOffset) = (tsf + u.nextOffset) % 4294967296 := Int.emod_add_emod ..
    show Except.ok (Data.mk (machine.time (tsf % 4294967296 + u.nextOffset)) u.hasNextTsf u.absent _) = _
    rw [next]
    rfl

theorem updates_follows (later : List Int) (ran : updates exact d later = .ok steps) :
    updates machine (wrapData d) (later.map (· % 4294967296)) = .ok (steps.map wrapStep) := by
  induction later generalizing d steps with
  | nil =>
    cases ran
    rfl
  | cons tsf rest ih =>
    obtain ⟨next,updated,ran⟩ := bind_ok.mp ran
    obtain ⟨more,rest_ran,ran⟩ := bind_ok.mp ran
    cases ran
    exact bind_ok.mpr ⟨wrapData next,updateP2pNoa_follows updated,bind_ok.mpr ⟨more.map wrapStep,ih rest_ran,rfl⟩⟩

theorem stored_follows (attr : AttrDesc) : stored machine (tsf % 4294967296) attr = wrap (stored exact tsf attr) := by
  have start : (attr.startTime.toNat : Int) = (tsf + signed (attr.startTime.toNat - tsf)) % 4294967296 := by
    have := attr.startTime.toNat_lt
    unfold signed
    omega
  show Desc.mk _ (attr.startTime.toNat : Int) _ _ = _
  rw [start]
  rfl

theorem parseDesc_follows (attr : Attr) (s : (Index → Desc) × Nat) (i : Index) (next : (Index → Desc) × Nat)
    (ran : parseDesc exact attr tsf s i = .ok next) :
    parseDesc machine attr (tsf % 4294967296) (fun i => wrap (s.1 i),s.2) i = .ok (fun i => wrap (next.1 i),next.2) := by
  unfold parseDesc at ran ⊢
  rw [stored_follows]
  split_ifs at ran ⊢ with unused invalid
  · cases ran
    rfl
  · cases ran
    rw [wrap_update]
  · obtain ⟨⟨x,moved⟩,extended,ran⟩ := bind_ok.mp ran
    cases ran
    refine bind_ok.mpr ⟨(wrap x,moved),extendNoaDesc_follows (Int.emod_emod_of_dvd _ (Int.dvd_refl _)) extended,?_⟩
    show Except.ok (update (fun i => wrap (s.1 i)) i (wrap x),_) = _
    rw [wrap_update]

theorem run_follows (ran : run exact attr tsf later = .ok steps) :
    run machine attr (tsf % 4294967296) (later.map (· % 4294967296)) = .ok (steps.map wrapStep) := by
  obtain ⟨desc,ret,parsed,ran⟩ := run_ok.mp ran
  have parsed' : parseDescs machine attr (tsf % 4294967296) = .ok (fun i => wrap (desc i),ret) :=
    Loops.exceptFold_follows (fun s : (Index → Desc) × Nat => (fun i => wrap (s.1 i),s.2)) (List.finRange 4) (parseDesc_follows attr) parsed
  refine run_ok.mpr ⟨_,ret,parsed',?_⟩
  have updated := updates_follows _ ran
  by_cases none_ : ret = 0
  · rw [if_pos none_] at updated ⊢
    exact updated
  · rw [if_neg none_] at updated ⊢
    exact updated

end follows

section clean

def Clean (m : Except Fault α) : Prop := m ≠ .error .divideByZero

theorem clean_bind (first : Clean m) (rest : ∀ v, m = .ok v → Clean (f v)) : Clean (m >>= f) := by
  cases m with
  | error =>
    intro stopped
    cases stopped
    exact first rfl
  | ok v => exact rest v rfl

theorem clean_ok (v : α) : Clean (.ok v) := nofun

theorem clean_fold (inv : σ → Prop) (xs : List α) (start : inv s)
    (kept : ∀ s x t, inv s → f s x = .ok t → inv t) (clean : ∀ s x, inv s → Clean (f s x)) : Clean (xs.foldlM f s) := by
  intro stopped
  obtain ⟨s,x,holds,stopped⟩ := Loops.exceptFold_stops inv xs start kept stopped
  exact clean s x holds stopped

theorem clean_s32 (y : Int) : Clean (exact.s32 y) := by
  unfold exact
  dsimp only
  split_ifs
  · exact clean_ok y
  · exact nofun

theorem clean_u32 (y : Int) : Clean (exact.u32 y) := by
  unfold exact
  dsimp only
  split_ifs
  · exact clean_ok y
  · exact nofun

theorem extendNoaDesc_clean (nonzero : x.interval ≠ 0) (tsf : Int) : Clean (extendNoaDesc exact x tsf) := by
  refine clean_bind (clean_s32 _) ?_
  intro e _
  by_cases going : e > 0
  · rw [if_pos going]
    exact clean_ok _
  rw [if_neg going]
  refine clean_bind ?_ ?_
  · unfold divRoundUp
    rw [if_neg nonzero]
    exact clean_bind (clean_u32 _) fun _ _ => clean_s32 _
  · intro _ _
    by_cases finite : x.count < 255
    · rw [if_pos finite]
      split_ifs <;> exact clean_ok _
    · rw [if_neg finite]
      exact clean_ok _

theorem extendAbsentTime_clean (nonzero : Nonzero desc) (tsf offset : Int) : Clean (extendAbsentTime exact tsf desc offset) := by
  refine clean_fold (fun s : Absence => Nonzero s.desc) (List.finRange 4) nonzero
    (fun s i t nonzero step => extendAbsence_keeps (nonzero_extends exact) nonzero step) ?_
  intro s i nonzero
  unfold extendAbsence
  by_cases none_left : (s.desc i).count = 0
  · rw [if_pos none_left]
    exact clean_ok _
  · rw [if_neg none_left]
    refine clean_bind (extendNoaDesc_clean (nonzero i none_left) _) fun r _ => clean_bind (clean_s32 _) fun start _ => ?_
    by_cases ahead : start > s.offset
    · exact (if_pos ahead).symm ▸ clean_ok _
    · exact (if_neg ahead).symm ▸ clean_bind (clean_s32 _) fun _ _ => clean_ok _

theorem extendTries_clean (tries : Nat) (nonzero : Nonzero s.desc) (tsf : Int) : Clean (extendTries exact tsf tries s) := by
  induction tries generalizing s with
  | zero => exact clean_ok s
  | succ tries ih =>
    refine clean_bind (extendAbsentTime_clean nonzero tsf s.offset) ?_
    intro u first
    split_ifs
    · exact ih (extendAbsentTime_keeps (nonzero_extends exact) nonzero first)
    · exact clean_ok u

theorem updateP2pNoa_clean (nonzero : Nonzero d.desc) (tsf : Int) : Clean (updateP2pNoa exact d tsf) := by
  have descs : Clean (updateDescs exact tsf d.desc) := by
    refine clean_fold (fun s : Update => Nonzero s.desc) (List.finRange 4) nonzero
      (fun s i t nonzero step => updateDesc_keeps (nonzero_extends exact) nonzero step) ?_
    intro s i nonzero
    unfold updateDesc
    split_ifs with none_left
    · exact clean_ok s
    · exact clean_bind (extendNoaDesc_clean (nonzero i none_left) tsf) fun r _ => clean_bind (clean_s32 _) fun _ _ => clean_ok _
  refine clean_bind descs ?_
  intro u updated
  have kept := updateDescs_keeps (nonzero_extends exact) nonzero updated
  split_ifs
  · refine clean_bind (clean_bind (extendAbsentTime_clean kept tsf 0) ?_) fun _ _ => clean_ok _
    intro s first
    exact extendTries_clean 5 (extendAbsentTime_keeps (nonzero_extends exact) kept first) tsf
  · exact clean_ok _

theorem updates_clean (later : List Int) (nonzero : Nonzero d.desc) : Clean (updates exact d later) := by
  induction later generalizing d with
  | nil => exact clean_ok []
  | cons tsf rest ih =>
    refine clean_bind (updateP2pNoa_clean nonzero tsf) fun next updated => ?_
    exact clean_bind (ih (updateP2pNoa_keeps (nonzero_extends exact) nonzero updated)) fun _ _ => clean_ok _

end clean

-- 255 of them are without end.
def InWindow (x : Desc) (tsf : Int) : Prop :=
  ∃ m : Nat, (x.count = 255 ∨ (m : Int) < x.count) ∧ x.start + m * x.interval ≤ tsf ∧ tsf < x.start + m * x.interval + x.duration

def Past (x : Desc) (tsf : Int) : Prop := x.count ≠ 0 ∧ x.count < 255 ∧ x.start + (x.count - 1) * x.interval + x.duration ≤ tsf

structure Regular (x : Desc) : Prop where
  lasts : 0 < x.duration
  repeats : 0 < x.interval
  apart : x.count ≠ 1 → x.duration ≤ x.interval
  byte : 0 ≤ x.count ∧ x.count ≤ 255

section windows

theorem rounded_up {k : Int} (positive : 0 < d) (same : k = (n + d - 1) / d) : n ≤ k * d ∧ k * d < n + d := by
  have quotient := Int.mul_ediv_add_emod (n + d - 1) d
  have low := Int.emod_nonneg (n + d - 1) (by omega : d ≠ 0)
  have high := Int.emod_lt_of_pos (n + d - 1) positive
  rw [← same,Int.mul_comm] at quotient
  omega

theorem window_unique (regular : Regular x) (ended : x.start + (k - 1) * x.interval + x.duration ≤ tsf)
    (going : tsf < x.start + k * x.interval + x.duration) (left : x.count = 255 ∨ k < x.count) (positive : 0 ≤ k) :
    InWindow x tsf ↔ x.start + k * x.interval ≤ tsf := by
  constructor
  · rintro ⟨m,_,begun,_⟩
    by_cases before : (m : Int) < k
    · have steps : (m : Int) * x.interval ≤ (k - 1) * x.interval := Int.mul_le_mul_of_nonneg_right (by omega) (by have := regular.repeats; omega)
      omega
    · have steps : k * x.interval ≤ m * x.interval := Int.mul_le_mul_of_nonneg_right (by omega) (by have := regular.repeats; omega)
      omega
  · intro begun
    refine ⟨k.toNat,?_,?_,?_⟩
    · rw [Int.toNat_of_nonneg positive]
      exact left
    · rw [Int.toNat_of_nonneg positive]
      exact begun
    · rw [Int.toNat_of_nonneg positive]
      exact going

theorem past_over (regular : Regular x) (past : Past x tsf) (left : k < x.count) : x.start + k * x.interval + x.duration ≤ tsf := by
  obtain ⟨_,_,_⟩ := past
  have steps : k * x.interval ≤ (x.count - 1) * x.interval := Int.mul_le_mul_of_nonneg_right (by omega) (by have := regular.repeats; omega)
  omega

theorem extendNoaDesc_windows (regular : Regular x) (counted : x.count ≠ 0) (ran : extendNoaDesc exact x tsf = .ok (x',moved)) :
    x'.start ≤ tsf ↔ Past x tsf ∨ InWindow x tsf := by
  have lasts := regular.lasts
  have repeats := regular.repeats
  obtain ⟨_,_⟩ := regular.byte
  obtain ⟨e,read,cases_⟩ := extendNoaDesc_cases ran
  obtain ⟨rfl,_,_⟩ := exact_s32 read
  rcases cases_ with ⟨_,rfl⟩ | ⟨_,skip,divided,cases_⟩
  · constructor
    · intro begun
      exact .inr ⟨0,by omega,by simpa using begun,by simp only [Int.natCast_zero,Int.zero_mul]; omega⟩
    · rintro (past | ⟨m,_,begun,_⟩)
      · have := past_over regular past (k := 0) (by omega)
        omega
      · have steps : 0 ≤ (m : Int) * x'.interval := Int.mul_nonneg (by omega) (by omega)
        omega
  obtain ⟨_,quotient,_⟩ := divRoundUp_exact divided
  obtain ⟨_,_⟩ := rounded_up repeats quotient
  have product : (skip - 1) * x.interval = skip * x.interval - x.interval := by rw [Int.sub_mul,Int.one_mul]
  have positive : 0 ≤ skip := by
    rw [quotient]
    exact Int.ediv_nonneg (by omega) (by omega)
  have ended : x.start + (skip - 1) * x.interval + x.duration ≤ tsf := by omega
  rcases cases_ with ⟨finite,ended,rfl⟩ | ⟨finite,left,rfl⟩ | ⟨_,rfl⟩
  · have begun : x.start ≤ tsf := by omega
    refine iff_of_true begun (.inl ⟨counted,finite,?_⟩)
    have steps : (x.count - 1) * x.interval ≤ (skip - 1) * x.interval := Int.mul_le_mul_of_nonneg_right (by omega) (by omega)
    omega
  · have present : ¬ Past x tsf := by
      intro past
      have := past_over regular past left
      omega
    rw [window_unique regular ended (by omega) (.inr left) positive]
    exact ⟨.inr,fun either => either.resolve_left present⟩
  · have present : ¬ Past x tsf := by
      rintro ⟨_,_,_⟩
      omega
    rw [window_unique regular ended (by omega) (.inl (by omega)) positive]
    exact ⟨.inr,fun either => either.resolve_left present⟩

def Tail (all x : Desc) : Prop := x.duration = all.duration ∧ x.interval = all.interval ∧ (x.count = 0 ∨ ∃ m : Nat,
  x.start = all.start + m * all.interval ∧ (all.count = 255 ∧ x.count = 255 ∨ all.count < 255 ∧ x.count + m = all.count ∧ 0 < x.count))

def Left (all x : Desc) (tsf : Int) : Prop :=
  ∃ m : Nat, (all.count = 255 ∨ (m : Int) < all.count) ∧ (x.count = 0 ∨ all.start + m * all.interval < x.start) ∧
    all.start + m * all.interval ≤ tsf ∧ tsf < all.start + m * all.interval + all.duration

def Tracked (all x : Desc) (tsf : Int) : Prop := ¬ Past x tsf ∧ ¬ Left all x tsf


section
variable (regular : Regular all) (tail : Tail all x)
include regular tail

theorem tail_regular (counted : x.count ≠ 0) : Regular x := by
  obtain ⟨_,_,apart,_,_⟩ := regular
  obtain ⟨duration,interval,none_ | ⟨m,_,⟨_,_⟩ | ⟨_,_,_⟩⟩⟩ := tail
  · exact absurd none_ counted
  · exact ⟨by omega,by omega,fun _ => by rw [duration,interval]; exact apart (by omega),by omega,by omega⟩
  · exact ⟨by omega,by omega,fun _ => by rw [duration,interval]; exact apart (by omega),by omega,by omega⟩

theorem tail_extends (counted : x.count ≠ 0) (ran : extendNoaDesc exact x tsf = .ok (x',moved)) : Tail all x' := by
  have repeats := (tail_regular regular tail counted).repeats
  obtain ⟨duration,interval,none_ | ⟨m,start,counts⟩⟩ := tail
  · exact absurd none_ counted
  obtain ⟨e,_,cases_⟩ := extendNoaDesc_cases ran
  rcases cases_ with ⟨_,rfl⟩ | ⟨_,skip,divided,cases_⟩
  · exact ⟨duration,interval,.inr ⟨m,start,counts⟩⟩
  obtain ⟨_,quotient,_⟩ := divRoundUp_exact divided
  have positive : 0 ≤ skip := by
    rw [quotient]
    exact Int.ediv_nonneg (by omega) (by omega)
  have later : x.start + skip * x.interval = all.start + ((m + skip.toNat : Nat) : Int) * all.interval := by
    rw [start,interval,Int.natCast_add,Int.toNat_of_nonneg positive,Int.add_mul,Int.add_assoc]
  rcases cases_ with ⟨_,_,rfl⟩ | ⟨_,_,rfl⟩ | ⟨_,rfl⟩
  · exact ⟨duration,interval,.inl rfl⟩
  · refine ⟨duration,interval,.inr ⟨m + skip.toNat,later,.inr ?_⟩⟩
    dsimp only
    omega
  · refine ⟨duration,interval,.inr ⟨m + skip.toNat,later,.inl ?_⟩⟩
    dsimp only
    omega

theorem inWindow_split : InWindow all tsf ↔ Left all x tsf ∨ InWindow x tsf := by
  have repeats := regular.repeats
  obtain ⟨_,interval,tail⟩ := tail
  constructor
  · rintro ⟨m,inside,begun,open_⟩
    by_cases gone : x.count = 0 ∨ all.start + m * all.interval < x.start
    · exact .inl ⟨m,inside,gone,begun,open_⟩
    obtain ⟨counted,_⟩ := not_or.mp gone
    obtain none_ | ⟨k,start,_⟩ := tail
    · exact absurd none_ counted
    · have order : (k : Int) ≤ m := by
        by_contra before
        have steps : ((m : Int) + 1) * all.interval ≤ k * all.interval := Int.mul_le_mul_of_nonneg_right (by omega) (by omega)
        rw [Int.add_mul,Int.one_mul] at steps
        omega
      have place : x.start + ((m - k : Nat) : Int) * x.interval = all.start + m * all.interval := by
        rw [start,interval,Int.natCast_sub (by omega),Int.sub_mul]
        omega
      exact .inr ⟨m - k,by omega,by omega,by omega⟩
  · rintro (⟨m,inside,_,begun,open_⟩ | ⟨m,inside,begun,open_⟩)
    · exact ⟨m,inside,begun,open_⟩
    · obtain _ | ⟨k,start,_⟩ := tail
      · omega
      · have place : all.start + ((m + k : Nat) : Int) * all.interval = x.start + m * x.interval := by
          rw [start,interval,Int.natCast_add,Int.add_mul]
          omega
        exact ⟨m + k,by omega,by omega,by omega⟩

theorem left_before (counted : x.count ≠ 0) (left : Left all x tsf) : tsf < x.start := by
  have repeats := regular.repeats
  obtain ⟨_,interval,none_ | ⟨k,_,_⟩⟩ := tail
  · exact absurd none_ counted
  obtain ⟨m,_,none_ | _,_,_⟩ := left
  · exact absurd none_ counted
  · have order : (m : Int) < k := by
      by_contra after
      have steps : (k : Int) * all.interval ≤ m * all.interval := Int.mul_le_mul_of_nonneg_right (by omega) (by omega)
      omega
    have apart := regular.apart (by omega)
    have steps : ((m : Int) + 1) * all.interval ≤ k * all.interval := Int.mul_le_mul_of_nonneg_right (by omega) (by omega)
    rw [Int.add_mul,Int.one_mul] at steps
    omega

end

theorem past_begun (regular : Regular x) (past : Past x tsf) : x.start ≤ tsf := by
  have := past_over regular past (k := 0) (by have := past.1; have := regular.byte; omega)
  have := regular.lasts
  omega

theorem absent_iff_tracked (regular : Regular all) (tail : Tail all x) (counted : x.count ≠ 0)
    (found : bit ↔ Past x tsf ∨ InWindow x tsf) : (bit ↔ InWindow all tsf) ↔ Tracked all x tsf := by
  have here := tail_regular regular tail counted
  have apart_left : InWindow x tsf → ¬ Left all x tsf := by
    rintro ⟨m,_,begun,_⟩ left
    have before := left_before regular tail counted left
    have steps : 0 ≤ (m : Int) * x.interval := Int.mul_nonneg (by omega) (by have := here.repeats; omega)
    omega
  have apart_past : InWindow x tsf → ¬ Past x tsf := by
    rintro ⟨m,_,_,_⟩ past
    have ended := past_over here past (k := m) (by have := past.2.1; omega)
    omega
  have past_left : Past x tsf → ¬ Left all x tsf := by
    intro past left
    have before := left_before regular tail counted left
    have begun := past_begun here past
    omega
  rw [found,inWindow_split regular tail]
  unfold Tracked
  tauto

end windows

section absent

def Judged (tsf : Int) (x : Desc) (bit : Bool) : Prop :=
  (x.count = 0 ∧ bit = false) ∨ (x.count ≠ 0 ∧ ∃ x' moved, extendNoaDesc exact x tsf = .ok (x',moved) ∧ bit = decide (x'.start ≤ tsf))

theorem updateDesc_judged (fresh : s.absent i = false) (ran : updateDesc exact tsf s i = .ok t) :
    Judged tsf (s.desc i) (t.absent i) ∧ ∀ j, j ≠ i → t.desc j = s.desc j ∧ t.absent j = s.absent j := by
  unfold updateDesc at ran
  split_ifs at ran with none_left
  · cases ran
    exact ⟨.inl ⟨none_left,fresh⟩,fun _ _ => ⟨rfl,rfl⟩⟩
  obtain ⟨⟨x,moved⟩,extended,ran⟩ := bind_ok.mp ran
  obtain ⟨_,read,ran⟩ := bind_ok.mp ran
  obtain ⟨rfl,_,_⟩ := exact_s32 read
  cases ran
  dsimp only
  refine ⟨.inr ⟨none_left,x,moved,extended,?_⟩,fun j other => ⟨update_of_ne other ..,?_⟩⟩
  · split_ifs with begun
    · rw [update_self]
      exact (decide_eq_true (by omega)).symm
    · rw [fresh]
      exact (decide_eq_false (by omega)).symm
  · split_ifs
    · exact update_of_ne other ..
    · rfl

theorem updateDescs_judged (ran : updateDescs exact tsf desc = .ok u) (i : Index) : Judged tsf (desc i) (u.absent i) := by
  have walk : ∀ (is : List Index) (s t : Update), is.Nodup → (∀ i ∈ is, s.absent i = false) →
      is.foldlM (updateDesc exact tsf) s = .ok t →
        (∀ i ∈ is, Judged tsf (s.desc i) (t.absent i)) ∧ ∀ i, i ∉ is → t.absent i = s.absent i := by
    intro is
    induction is with
    | nil =>
      intro s t _ _ ran
      cases ran
      exact ⟨nofun,fun _ _ => rfl⟩
    | cons k rest ih =>
      intro s t distinct fresh ran
      obtain ⟨alone,distinct⟩ := List.nodup_cons.mp distinct
      obtain ⟨u,first,ran⟩ := Loops.exceptFold_cons.mp ran
      obtain ⟨judged,others⟩ := updateDesc_judged (fresh k (List.mem_cons_self ..)) first
      have apart : ∀ i ∈ rest, i ≠ k := fun i member same => alone (same ▸ member)
      have later : ∀ i ∈ rest, u.absent i = false := fun i member => (others i (apart i member)).2.trans (fresh i (List.mem_cons_of_mem _ member))
      obtain ⟨all,kept⟩ := ih u t distinct later ran
      refine ⟨?_,?_⟩
      · intro i member
        cases List.mem_cons.mp member with
        | inl here =>
          subst here
          rw [kept i alone]
          exact judged
        | inr there =>
          rw [← (others i (apart i there)).1]
          exact all i there
      · intro i outside
        obtain ⟨other,outside⟩ := not_or.mp (fun either => outside (List.mem_cons.mpr either))
        rw [kept i outside,(others i other).2]
  exact (walk (List.finRange 4) _ _ (List.nodup_finRange 4) (fun _ _ => rfl) ran).1 i (List.mem_finRange i)

theorem updateP2pNoa_absent (ran : updateP2pNoa exact d tsf = .ok next) (i : Index) :
    Judged tsf (d.desc i) (next.absent i) := by
  obtain ⟨u,updated,ran⟩ := bind_ok.mp ran
  have judged := updateDescs_judged updated i
  split_ifs at ran
  · obtain ⟨s,_,ran⟩ := bind_ok.mp ran
    cases ran
    exact judged
  · cases ran
    exact judged

def Tails (attr : Attr) (t0 : Int) (i : Index) (x : Desc) : Prop :=
  if empty (attr i) then x.count = 0 else Tail (stored exact t0 (attr i)) x

theorem steps_of_updates (later : List Int) (ran : updates a d later = .ok steps) :
    ∀ s ∈ steps, updateP2pNoa a s.before s.tsf = .ok s.after := by
  induction later generalizing d steps with
  | nil =>
    cases ran
    exact nofun
  | cons tsf rest ih =>
    obtain ⟨_,updated,ran⟩ := bind_ok.mp ran
    obtain ⟨_,rest_ran,ran⟩ := bind_ok.mp ran
    cases ran
    intro s member
    cases List.mem_cons.mp member with
    | inl first =>
      rw [first]
      exact updated
    | inr later => exact ih rest_ran s later

variable {attr : Attr} (apart : ∀ i, overlapping (attr i) = false) (told : ∀ i, empty (attr i) = false → (attr i).interval ≠ 0)
include apart told

theorem stored_regular (t0 : Int) (i : Index) (used : empty (attr i) = false) : Regular (stored exact t0 (attr i)) := by
  obtain ⟨count,duration⟩ : (attr i).count ≠ 0 ∧ (attr i).duration ≠ 0 := by simpa [empty] using used
  have interval := told i used
  have single := apart i
  have lasts : (attr i).duration.toNat ≠ 0 := fun zero => duration (UInt32.toNat_inj.mp zero)
  have repeats : (attr i).interval.toNat ≠ 0 := fun zero => interval (UInt32.toNat_inj.mp zero)
  have byte := (attr i).count.toNat_lt
  refine ⟨?_,?_,?_,?_⟩
  · show 0 < ((attr i).duration.toNat : Int)
    omega
  · show 0 < ((attr i).interval.toNat : Int)
    omega
  · intro many
    have positive : (attr i).count.toNat ≠ 0 := fun zero => count (UInt8.toNat_inj.mp zero)
    have two : (attr i).count > 1 := by
      show (1 : UInt8).toNat < (attr i).count.toNat
      have one : (1 : UInt8).toNat = 1 := rfl
      have : ((attr i).count.toNat : Int) ≠ 1 := many
      omega
    have order : ¬ (attr i).interval < (attr i).duration := by simpa [overlapping,two] using single
    have := UInt32.not_lt.mp order
    exact Int.ofNat_le.mpr (UInt32.le_iff_toNat_le.mp this)
  · show 0 ≤ ((attr i).count.toNat : Int) ∧ ((attr i).count.toNat : Int) ≤ 255
    omega

theorem tails_extends (t0 : Int) : Extends exact (Tails attr t0) := by
  intro i x _ _ _ tails counted ran
  unfold Tails at tails ⊢
  split_ifs at tails ⊢ with unused
  · exact absurd tails counted
  · exact tail_extends (stored_regular apart told t0 i (Bool.eq_false_iff.mpr unused)) tails counted ran

theorem parseDescs_tails (ran : parseDescs exact attr t0 = .ok (desc,ret)) (i : Index) : Tails attr t0 i (desc i) := by
  unfold Tails
  rcases parseDescs_parsed ran i with ⟨unused,same⟩ | ⟨_,overlap,_⟩ | ⟨used,_,_,extended⟩
  · rw [if_pos unused,same]
    rfl
  · rw [apart i] at overlap
    cases overlap
  · have regular := stored_regular apart told t0 i used
    have counted : (stored exact t0 (attr i)).count ≠ 0 := unused_zero used
    obtain ⟨_,_⟩ := regular.byte
    have whole : Tail (stored exact t0 (attr i)) (stored exact t0 (attr i)) := by
      refine ⟨rfl,rfl,.inr ⟨0,by simp,?_⟩⟩
      omega
    rw [if_neg (Bool.eq_false_iff.mp used)]
    exact tail_extends regular whole counted extended

theorem run_clean (t0 : Int) (later : List Int) : Clean (run exact attr t0 later) := by
  have parse : Clean (parseDescs exact attr t0) := by
    refine clean_fold (fun _ => True) (List.finRange 4) trivial (fun _ _ _ _ _ => trivial) ?_
    intro s i _
    unfold parseDesc
    split_ifs with unused invalid
    · exact clean_ok s
    · exact clean_ok _
    · have positive := (stored_regular apart told t0 i (Bool.eq_false_iff.mpr unused)).repeats
      exact clean_bind (extendNoaDesc_clean (by omega) t0) fun _ _ => clean_ok _
  refine clean_bind parse ?_
  rintro ⟨_,_⟩ parsed
  refine updates_clean _ ?_
  intro i counted
  have tails := parseDescs_tails apart told parsed i
  unfold Tails at tails
  split_ifs at tails with unused
  · exact absurd tails counted
  · have positive := (stored_regular apart told t0 i (Bool.eq_false_iff.mpr unused)).repeats
    have same := tails.2.1
    dsimp only
    omega

omit apart told

theorem inWindow_empty (unused : empty (attr i) = true) : ¬ InWindow (stored exact t0 (attr i)) tsf := by
  rintro ⟨m,_,_,_⟩
  rcases Bool.or_eq_true_iff.mp unused with none_ | short
  · have zero : (stored exact t0 (attr i)).count = 0 := by
      show ((attr i).count.toNat : Int) = 0
      rw [of_decide_eq_true none_]
      rfl
    omega
  · have zero : (stored exact t0 (attr i)).duration = 0 := by
      show ((attr i).duration.toNat : Int) = 0
      rw [of_decide_eq_true short]
      rfl
    omega

theorem update_p2p_noa_absent (attr : Attr) (apart : ∀ i, overlapping (attr i) = false)
    (told : ∀ i, empty (attr i) = false → (attr i).interval ≠ 0) (t0 : Int) (later : List Int)
    (clear : run exact attr t0 later ≠ .error .ambiguous) :
    ∃ steps, run exact attr t0 later = .ok steps ∧
      run machine attr (t0 % 4294967296) (later.map (· % 4294967296)) = .ok (steps.map wrapStep) ∧
      ∀ s ∈ steps, ∀ i, (((wrapStep s).after.absent i = true ↔ InWindow (stored exact t0 (attr i)) s.tsf) ↔
        Tracked (stored exact t0 (attr i)) (s.before.desc i) s.tsf) := by
  cases ran : run exact attr t0 later with
  | error fault =>
    cases fault with
    | divideByZero => exact absurd ran (run_clean apart told t0 later)
    | ambiguous => exact absurd ran clear
  | ok steps =>
    refine ⟨steps,rfl,run_follows ran,?_⟩
    intro s member i
    obtain ⟨desc,_,parsed,updated⟩ := run_ok.mp ran
    have tails := updates_keeps (tails_extends apart told t0) _ (parseDescs_tails apart told parsed) updated s member i
    have judged := updateP2pNoa_absent (steps_of_updates _ updated s member) i
    show (s.after.absent i = true ↔ _) ↔ _
    unfold Tails at tails
    split_ifs at tails with unused
    · rcases judged with ⟨none_left,bit⟩ | ⟨counted,_⟩
      · have outside : ¬ InWindow (stored exact t0 (attr i)) s.tsf := inWindow_empty unused
        have tracked : Tracked (stored exact t0 (attr i)) (s.before.desc i) s.tsf := by
          refine ⟨fun past => past.1 none_left,?_⟩
          rintro ⟨m,inside,_,begun,open_⟩
          exact outside ⟨m,inside,begun,open_⟩
        rw [bit]
        exact iff_of_true (iff_of_false Bool.false_ne_true outside) tracked
      · exact absurd tails counted
    have regular := stored_regular apart told t0 i (Bool.eq_false_iff.mpr unused)
    rcases judged with ⟨none_left,bit⟩ | ⟨counted,_,_,extended,bit⟩
    · have past : ¬ Past (s.before.desc i) s.tsf := fun past => past.1 none_left
      have none_ : ¬ InWindow (s.before.desc i) s.tsf := by
        rintro ⟨m,_,_⟩
        omega
      rw [bit,inWindow_split regular tails]
      unfold Tracked
      simp [past,none_]
    · refine absent_iff_tracked regular tails counted ?_
      rw [bit,decide_eq_true_iff]
      exact extendNoaDesc_windows (tail_regular regular tails counted) counted extended

def oneAbsence : Attr := firstOnly ⟨1,100,100,1000⟩

theorem update_p2p_noa_absent_sample : ∃ steps, run exact oneAbsence 0 [1050] = .ok steps ∧
    run machine oneAbsence (0 % 4294967296) ([1050].map (· % 4294967296)) = .ok (steps.map wrapStep) ∧
    ∀ s ∈ steps, ∀ i, (((wrapStep s).after.absent i = true ↔ InWindow (stored exact 0 (oneAbsence i)) s.tsf) ↔
      Tracked (stored exact 0 (oneAbsence i)) (s.before.desc i) s.tsf) :=
  update_p2p_noa_absent oneAbsence (by decide) (by decide) 0 [1050] (by
    have ran : ∃ steps, run exact oneAbsence 0 [1050] = .ok steps := ⟨_,rfl⟩
    obtain ⟨steps,ran⟩ := ran
    rw [ran]
    exact nofun)

def frequentAbsence : Attr := firstOnly ⟨255,100,1000,0⟩

def judgements (i : Index) (steps : List Step) : List (Int × Bool) := steps.map fun s => (s.tsf,s.after.absent i)

theorem judged_step
    (ran : (run a attr t0 later).map (judgements i) = .ok js) (member : j ∈ js) :
    ∃ steps, run a attr t0 later = .ok steps ∧ ∃ s ∈ steps, s.tsf = j.1 ∧ s.after.absent i = j.2 := by
  cases whole : run a attr t0 later with
  | error =>
    rw [whole] at ran
    cases ran
  | ok steps =>
    rw [whole] at ran
    cases ran
    obtain ⟨s,step,rfl⟩ := List.mem_map.mp member
    exact ⟨steps,rfl,s,step,rfl,rfl⟩

theorem absence_misjudged :
    ((∃ steps, run machine oneAbsence 0 [1200] = .ok steps ∧ ∃ s ∈ steps, s.tsf = 1200 ∧ s.after.absent 0 = true) ∧
      ¬ InWindow (stored exact 0 (oneAbsence 0)) 1200) ∧
    (∃ steps, run machine frequentAbsence 50 [60] = .ok steps ∧ ∃ s ∈ steps, s.tsf = 60 ∧ s.after.absent 0 = false) ∧
      InWindow (stored exact 50 (frequentAbsence 0)) 60 := by
  have late : (run machine oneAbsence 0 [1200]).map (judgements 0) = .ok [(0,false),(1200,true)] := by decide +kernel
  have early : (run machine frequentAbsence 50 [60]).map (judgements 0) = .ok [(50,true),(60,false)] := by decide +kernel
  refine ⟨⟨judged_step late (j := (1200,true)) (by decide),?_⟩,judged_step early (j := (60,false)) (by decide),?_⟩
  · have same : stored exact 0 (oneAbsence 0) = ⟨1,1000,100,100⟩ := by decide +kernel
    rw [same]
    rintro ⟨m,inside,begun,open_⟩
    dsimp only at inside begun open_
    omega
  · have same : stored exact 50 (frequentAbsence 0) = ⟨255,0,100,1000⟩ := by decide +kernel
    rw [same]
    exact ⟨0,.inl rfl,by decide,by decide⟩

end absent

end Mac80211.Noa

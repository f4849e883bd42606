import Mac80211.Loops
import Mathlib.Algebra.Ring.Nat

namespace Guarded
open Loops

-- fault: such as a dereferenced null pointer; going: the bound on the rounds of a loop is used up.
inductive Run (α : Type u) where
  | done (a : α)
  | fault
  | going

def Run.bind : Run α → (α → Run β) → Run β
  | .done a,next => next a
  | .fault,_ => .fault
  | .going,_ => .going

@[simp] theorem Run.done_bind (a : α) (next : α → Run β) : (Run.done a).bind next = next a := rfl
@[simp] theorem Run.fault_bind (next : α → Run β) : Run.fault.bind next = .fault := rfl
@[simp] theorem Run.going_bind (next : α → Run β) : Run.going.bind next = .going := rfl

theorem Run.bind_ends {run : Run α} {next : α → Run β} (ends : run ≠ .going)
    (rest : ∀ a, run = .done a → next a ≠ .going) : run.bind next ≠ .going := by
  cases run with
  | done a => exact rest a rfl
  | fault => exact fun same => by cases same
  | going => exact absurd rfl ends

def Run.Safe (holds : α → Prop) (run : Run α) : Prop := run = .going ∨ ∃ a, run = .done a ∧ holds a

theorem Run.bind_safe {run : Run α} {after : β → Prop} (safe : run.Safe holds)
    (rest : ∀ a, holds a → (next a).Safe after) : (run.bind next).Safe after := by
  rcases safe with still | ⟨a,ran,known⟩
  · rw [still]
    exact .inl rfl
  · rw [ran]
    exact rest a known

theorem Run.safe_mono {run : Run α} (safe : run.Safe holds) (weaker : ∀ a, holds a → more a) :
    run.Safe more := safe.imp_right fun ⟨a,ran,known⟩ => ⟨a,ran,weaker a known⟩

theorem Run.safe_done {run : Run α} (safe : run.Safe holds) (ends : run ≠ .going) :
    ∃ a, run = .done a ∧ holds a := safe.resolve_left ends

theorem Run.safe_faultless {run : Run α} (safe : run.Safe holds) : run ≠ .fault := by
  rcases safe with still | ⟨a,ran,_⟩
  · rw [still]
    exact fun same => by cases same
  · rw [ran]
    exact fun same => by cases same

-- Elements of arrays are used, each given by index and size. Only a strict run stops at one outside.
def act (strict : Bool) (uses : List (Nat × Nat)) (next : α) : Run α :=
  if strict && uses.any (fun u => u.2 ≤ u.1) then .fault else .done next

@[simp] theorem act_lenient (uses : List (Nat × Nat)) (next : α) : act false uses next = .done next := rfl

theorem act_inside (inside : ∀ u ∈ uses, u.1 < u.2) (strict : Bool) (next : α) :
    act strict uses next = .done next := by
  have all : uses.any (fun u => u.2 ≤ u.1) = false := by
    rw [List.any_eq_false]
    intro u member
    have below := inside u member
    simp only [decide_eq_true_eq]
    omega
  rw [act,all,Bool.and_false]
  rfl

theorem act_done (inside : strict = true → ∀ u ∈ uses, u.1 < u.2) (next : α) :
    act strict uses next = .done next := by
  cases strict with
  | false => exact act_lenient uses next
  | true => exact act_inside (inside rfl) true next

theorem act_outside (member : u ∈ uses) (outside : u.2 ≤ u.1) (next : α) :
    act true uses next = .fault := by
  have found : uses.any (fun u => u.2 ≤ u.1) = true := List.any_eq_true.mpr ⟨u,member,by simpa using outside⟩
  rw [act,found]
  rfl

theorem act_bind_done :
    (act strict uses next).bind rest = .done b ↔ (strict = true → ∀ u ∈ uses, u.1 < u.2) ∧ rest next = .done b := by
  by_cases inside : strict = true → ∀ u ∈ uses, u.1 < u.2
  · rw [act_done inside,Run.done_bind]
    exact ⟨fun ran => ⟨inside,ran⟩,And.right⟩
  · obtain ⟨rfl,not_all⟩ : _ = _ ∧ ¬∀ u ∈ uses, u.1 < u.2 := by simpa only [Classical.not_imp] using inside
    simp only [not_forall,not_lt] at not_all
    obtain ⟨u,member,outside⟩ := not_all
    rw [act_outside member outside,Run.fault_bind]
    exact ⟨fun same => (nomatch same),fun both => absurd both.1 inside⟩

theorem act_ends (strict : Bool) (uses : List (Nat × Nat)) (next : α) : act strict uses next ≠ .going := by
  unfold act
  split <;> exact fun same => by cases same

def rounds (body : Nat → σ → Run σ) : Nat → Nat → σ → Run σ
  | 0,_,s => .done s
  | count + 1,i,s => (body i s).bind (rounds body count (i + 1))

def forRun (lo hi : Nat) (body : Nat → σ → Run σ) (s : σ) : Run σ := rounds body (hi - lo) lo s

-- for(i = lo; i < hi; i += step) over 32 bit counters, from the round in which the counter is i.
def stepRun (hi step : Nat) (body : Nat → σ → Run σ) : Nat → Nat → σ → Run σ
  | 0,i,s => if i < hi then .going else .done s
  | fuel + 1,i,s =>
    if i < hi then (body i s).bind (stepRun hi step body fuel ((i + step) % 2 ^ 32)) else .done s

section
variable {body : Nat → σ → Run σ}
include body

theorem rounds_done (inv : Nat → σ → Prop) (count : Nat) (start : inv lo s)
    (kept : ∀ i s, lo ≤ i → i < lo + count → inv i s → ∃ t, body i s = .done t ∧ inv (i + 1) t) :
    ∃ t, rounds body count lo s = .done t ∧ inv (lo + count) t := by
  induction count generalizing lo s with
  | zero => exact ⟨s,rfl,start⟩
  | succ count ih =>
    obtain ⟨t,ran,next⟩ := kept lo s (Nat.le_refl lo) (by omega) start
    obtain ⟨u,rest,_⟩ := ih next fun i s low high => kept i s (by omega) (by omega)
    refine ⟨u,?_,by rwa [← Nat.add_assoc,Nat.add_right_comm]⟩
    rw [rounds,ran]
    exact rest

-- Total correctness: every round is done and keeps the invariant.
theorem forRun_done (inv : Nat → σ → Prop) (bounds : lo ≤ hi) (start : inv lo s)
    (kept : ∀ i s, lo ≤ i → i < hi → inv i s → ∃ t, body i s = .done t ∧ inv (i + 1) t) :
    ∃ t, forRun lo hi body s = .done t ∧ inv hi t := by
  obtain ⟨t,ran,last⟩ := rounds_done inv (hi - lo) start fun i s low high => kept i s low (by omega)
  refine ⟨t,ran,?_⟩
  rwa [Nat.add_sub_cancel' bounds] at last

theorem forRun_post {post : σ → Prop} (inv : Nat → σ → Prop) (bounds : lo ≤ hi) (start : inv lo s)
    (kept : ∀ i s, lo ≤ i → i < hi → inv i s → ∃ t, body i s = .done t ∧ inv (i + 1) t)
    (last : ∀ t, inv hi t → post t) : ∃ t, forRun lo hi body s = .done t ∧ post t := by
  obtain ⟨t,ran,holds⟩ := forRun_done inv bounds start kept
  exact ⟨t,ran,last t holds⟩

theorem rounds_safe (inv : Nat → σ → Prop) (count : Nat) (start : inv lo s)
    (kept : ∀ i s, lo ≤ i → i < lo + count → inv i s → (body i s).Safe (inv (i + 1))) :
    (rounds body count lo s).Safe (inv (lo + count)) := by
  induction count generalizing lo s with
  | zero => exact .inr ⟨s,rfl,start⟩
  | succ count ih =>
    refine Run.bind_safe (kept lo s (Nat.le_refl lo) (by omega) start) fun t next => ?_
    rw [← Nat.add_assoc,Nat.add_right_comm]
    exact ih next fun i s low high => kept i s (by omega) (by omega)

-- Partial correctness: no round meets a fault, and each keeps the invariant.
theorem forRun_safe (inv : Nat → σ → Prop) (bounds : lo ≤ hi) (start : inv lo s)
    (kept : ∀ i s, lo ≤ i → i < hi → inv i s → (body i s).Safe (inv (i + 1))) : (forRun lo hi body s).Safe (inv hi) := by
  have safe := rounds_safe inv (hi - lo) start fun i s low high => kept i s low (by omega)
  rwa [Nat.add_sub_cancel' bounds] at safe

theorem forRun_counted (inv : Nat → σ → Prop) (bounds : lo ≤ hi) (start : inv lo s)
    (same : ∀ i s, lo ≤ i → i < hi → inv i s → body i s = .done (f i s) ∧ inv (i + 1) (f i s)) :
    forRun lo hi body s = .done (forRange lo hi f s) ∧ inv hi (forRange lo hi f s) := by
  obtain ⟨t,ran,rfl,holds⟩ := forRun_done (fun i t => t = forRange lo i f s ∧ inv i t) bounds
    ⟨(forRange_empty (Nat.le_refl lo) f s).symm,start⟩ fun i t low high held => by
      obtain ⟨rfl,holds⟩ := held
      obtain ⟨ran,next⟩ := same i _ low high holds
      exact ⟨_,ran,(forRange_next low f s).symm,next⟩
  exact ⟨ran,holds⟩

theorem forRun_pure (inv : σ → Prop) (start : inv s)
    (same : ∀ i s, lo ≤ i → i < hi → inv s → body i s = .done (f i s) ∧ inv (f i s)) :
    forRun lo hi body s = .done (forRange lo hi f s) ∧ inv (forRange lo hi f s) := by
  by_cases bounds : lo ≤ hi
  · exact forRun_counted (fun _ => inv) bounds start same
  · have empty : hi - lo = 0 := by omega
    rw [forRange_empty (by omega),forRun,empty]
    exact ⟨rfl,start⟩

theorem forRun_same (same : ∀ i s, lo ≤ i → i < hi → body i s = .done (f i s)) (s : σ) :
    forRun lo hi body s = .done (forRange lo hi f s) :=
  (forRun_pure (fun _ => True) trivial fun i s low high _ => ⟨same i s low high,trivial⟩).1

theorem rounds_ends (count : Nat)
    (ends : ∀ i s, lo ≤ i → i < lo + count → body i s ≠ .going) (s : σ) : rounds body count lo s ≠ .going := by
  induction count generalizing lo s with
  | zero => exact fun same => by cases same
  | succ count ih =>
    exact Run.bind_ends (ends lo s (Nat.le_refl lo) (by omega)) fun t _ =>
      ih (fun i s low high => ends i s (by omega) (by omega)) t

theorem forRun_ends (ends : ∀ i s, lo ≤ i → i < hi → body i s ≠ .going) (s : σ) : forRun lo hi body s ≠ .going := by
  exact rounds_ends (hi - lo) (fun i s low high => ends i s low (by omega)) s

theorem rounds_faults (inv : Nat → σ → Prop) (count : Nat) (start : inv lo s) (low : lo ≤ m) (high : m < lo + count)
    (before : ∀ i s, lo ≤ i → i < m → inv i s → body i s = .fault ∨ ∃ t, body i s = .done t ∧ inv (i + 1) t)
    (here : ∀ s, inv m s → body m s = .fault) : rounds body count lo s = .fault := by
  induction count generalizing lo s with
  | zero => omega
  | succ count ih =>
    rw [rounds]
    by_cases first : lo = m
    · subst m
      rw [here s start,Run.fault_bind]
    · rcases before lo s (Nat.le_refl lo) (by omega) start with faults | ⟨t,ran,next⟩
      · rw [faults,Run.fault_bind]
      · rw [ran,Run.done_bind]
        exact ih next (by omega) (by omega) fun i s low high => before i s (by omega) high

theorem forRun_faults (inv : Nat → σ → Prop) (start : inv lo s) (low : lo ≤ m) (high : m < hi)
    (before : ∀ i s, lo ≤ i → i < m → inv i s → body i s = .fault ∨ ∃ t, body i s = .done t ∧ inv (i + 1) t)
    (here : ∀ s, inv m s → body m s = .fault) : forRun lo hi body s = .fault :=
  rounds_faults inv (hi - lo) start low (by omega) before here

theorem forRun_faults_any (low : lo ≤ m) (high : m < hi)
    (ends : ∀ i s, lo ≤ i → i < hi → body i s ≠ .going) (here : ∀ s, body m s = .fault) (s : σ) :
    forRun lo hi body s = .fault := by
  refine forRun_faults (fun _ _ => True) trivial low high ?_ fun s _ => here s
  intro i s before_m _ _
  have progress := ends i s before_m (by omega)
  cases ran : body i s with
  | done t => exact .inr ⟨t,rfl,trivial⟩
  | fault => exact .inl rfl
  | going => exact absurd ran progress

end

section Step

variable {body : Nat → σ → Run σ}

theorem stepRun_over (over_hi : hi ≤ i) (fuel : Nat) (s : σ) : stepRun hi step body fuel i s = .done s := by
  have stopped : ¬i < hi := by omega
  cases fuel with
  | zero | succ => rw [stepRun,if_neg stopped]

theorem stepRun_rounds (fits : count * step < 2 ^ 32) (enough : hi ≤ count * step)
    (needed : ∀ t < count, t * step < hi) (first : n ≤ count) (fuel : Nat) (rest : count ≤ n + fuel) (s : σ) :
    stepRun hi step body fuel (n * step) s = rounds (fun t => body (t * step)) (count - n) n s := by
  induction fuel generalizing n s with
  | zero =>
    have last : n = count := by omega
    subst n
    rw [stepRun_over enough,Nat.sub_self]
    rfl
  | succ fuel ih =>
    by_cases last : n = count
    · subst n
      rw [stepRun_over enough,Nat.sub_self]
      rfl
    have counter : (n * step + step) % 2 ^ 32 = (n + 1) * step := by
      have bound : (n + 1) * step ≤ count * step := Nat.mul_le_mul_right step (by omega)
      have sum : n * step + step = (n + 1) * step := (Nat.succ_mul n step).symm
      rw [sum]
      exact Nat.mod_eq_of_lt (by omega)
    obtain ⟨more,rounds_left⟩ : ∃ more, count - n = more + 1 := ⟨count - n - 1,by omega⟩
    have same : count - (n + 1) = more := by omega
    rw [stepRun,if_pos (needed n (by omega)),counter,rounds_left,rounds]
    congr 1
    funext t
    rw [ih (by omega) (by omega) t,same]

theorem stepRun_forRun (positive : 0 < step) (fits : (hi + step - 1) / step * step < 2 ^ 32) (fuel : Nat)
    (enough : (hi + step - 1) / step ≤ fuel) (s : σ) :
    stepRun hi step body fuel 0 s = forRun 0 ((hi + step - 1) / step) (fun t => body (t * step)) s := by
  have parts := Nat.div_add_mod' (hi + step - 1) step
  have small := Nat.mod_lt (hi + step - 1) positive
  have needed : ∀ t < (hi + step - 1) / step, t * step < hi := by
    intro t _
    have bound : (t + 1) * step ≤ (hi + step - 1) / step * step := Nat.mul_le_mul_right step (by omega)
    rw [Nat.succ_mul] at bound
    omega
  have run : stepRun hi step body fuel (0 * step) s = rounds (fun t => body (t * step)) ((hi + step - 1) / step - 0) 0 s :=
    stepRun_rounds fits (by omega) needed (Nat.zero_le _) fuel (by omega) s
  rw [Nat.zero_mul] at run
  exact run

theorem stepRun_stuck (inv : Nat → Prop) (below : ∀ i, inv i → i < hi ∧ inv ((i + step) % 2 ^ 32))
    (returns : ∀ i s, ∃ t, body i s = .done t) (fuel : Nat) (start : inv i) (s : σ) :
    stepRun hi step body fuel i s = .going := by
  induction fuel generalizing i s with
  | zero => rw [stepRun,if_pos (below i start).1]
  | succ fuel ih =>
    obtain ⟨t,ran⟩ := returns i s
    rw [stepRun,if_pos (below i start).1,ran,Run.done_bind]
    exact ih (below i start).2 t

theorem stepRun_ends (positive : 0 < step) (fits : (hi + step - 1) / step * step < 2 ^ 32) (enough : (hi + step - 1) / step ≤ fuel)
    (ends : ∀ i s, body i s ≠ .going) (s : σ) : stepRun hi step body fuel 0 s ≠ .going := by
  rw [stepRun_forRun positive fits fuel enough]
  exact forRun_ends (fun t s _ _ => ends (t * step) s) s

theorem stepRun_undone (inv : Nat → Prop) (below : ∀ i, inv i → i < hi)
    (kept : ∀ i s t, inv i → body i s = .done t → inv ((i + step) % 2 ^ 32)) (fuel : Nat) (start : inv i) (s t : σ) :
    stepRun hi step body fuel i s ≠ .done t := by
  induction fuel generalizing i s with
  | zero =>
    rw [stepRun,if_pos (below i start)]
    exact fun same => by cases same
  | succ fuel ih =>
    rw [stepRun,if_pos (below i start)]
    cases ran : body i s with
    | done u => exact ih (kept i s u start ran) u
    | fault | going => exact fun same => by cases same

theorem stepRun_safe (inv : Nat → σ → Prop)
    (kept : ∀ i s, i < hi → inv i s → ∃ t, body i s = .done t ∧ inv ((i + step) % 2 ^ 32) t) (fuel : Nat)
    (start : inv i s) : (stepRun hi step body fuel i s).Safe fun t => ∃ j, hi ≤ j ∧ inv j t := by
  induction fuel generalizing i s with
  | zero =>
    rw [stepRun]
    split
    · exact .inl rfl
    · exact .inr ⟨s,rfl,i,by omega,start⟩
  | succ fuel ih =>
    rw [stepRun]
    split
    · rename_i below
      obtain ⟨t,ran,holds⟩ := kept i s below start
      rw [ran,Run.done_bind]
      exact ih holds
    · exact .inr ⟨s,rfl,i,by omega,start⟩

end Step

-- The walk does not advance at the elements at which it stays.
def walkRun (stays : α → Bool) (body : α → σ → Run σ) : Nat → List α → σ → Run σ
  | _,[],s => .done s
  | 0,_ :: _,_ => .going
  | fuel + 1,x :: rest,s =>
    if stays x then walkRun stays body fuel (x :: rest) s else (body x s).bind (walkRun stays body fuel rest)

section Walk

variable {body : α → σ → Run σ}

theorem walkRun_stays (stuck : stays x = true) (fuel : Nat) (rest : List α) (s : σ) :
    walkRun stays body fuel (x :: rest) s = .going := by
  induction fuel with
  | zero => rfl
  | succ fuel ih => rw [walkRun,if_pos stuck,ih]

theorem walkRun_stuck (member : x ∈ xs) (stuck : stays x = true) (faultless : ∀ x s, body x s ≠ .fault)
    (fuel : Nat) (s : σ) : walkRun stays body fuel xs s = .going := by
  induction xs generalizing fuel s with
  | nil => cases member
  | cons y rest ih =>
    by_cases here : stays y = true
    · exact walkRun_stays here fuel rest s
    have later : x ∈ rest := by
      rcases List.mem_cons.mp member with rfl | later
      · exact absurd stuck here
      · exact later
    cases fuel with
    | zero => rfl
    | succ fuel =>
      rw [walkRun,if_neg here]
      cases ran : body y s with
      | done t => exact ih later fuel t
      | fault => exact absurd ran (faultless y s)
      | going => rfl

theorem walkRun_faultless (faultless : ∀ x s, body x s ≠ .fault) (fuel : Nat) (xs : List α) (s : σ) :
    walkRun stays body fuel xs s ≠ .fault := by
  induction fuel generalizing xs s with
  | zero => cases xs <;> exact fun same => by cases same
  | succ fuel ih =>
    cases xs with
    | nil => exact fun same => by cases same
    | cons x rest =>
      rw [walkRun]
      split
      · exact ih (x :: rest) s
      · cases ran : body x s with
        | done t => exact ih rest t
        | fault => exact absurd ran (faultless x s)
        | going => exact fun same => by cases same

theorem walkRun_ends (advances : ∀ x ∈ xs, stays x = false) (ends : ∀ x s, body x s ≠ .going)
    (enough : xs.length ≤ fuel) (s : σ) : walkRun stays body fuel xs s ≠ .going := by
  induction xs generalizing fuel s with
  | nil =>
    cases fuel <;> exact fun same => by cases same
  | cons x rest ih =>
    obtain ⟨fuel,rfl⟩ : ∃ more, fuel = more + 1 := by
      rw [List.length_cons] at enough
      exact ⟨fuel - 1,by omega⟩
    rw [walkRun,advances x (by simp),if_neg (by decide)]
    refine Run.bind_ends (ends x s) fun t _ => ?_
    exact ih (fun y member => advances y (List.mem_cons_of_mem x member)) (by simpa using enough) t

theorem walkRun_foldlM (advances : ∀ x ∈ xs, stays x = false)
    (enough : xs.length ≤ fuel) (inv : Nat → σ → Prop) (start : inv 0 s)
    (kept : ∀ i (h : i < xs.length) s, inv i s → ∃ t, body xs[i] s = .done t ∧ step s xs[i] = some t ∧ inv (i + 1) t) :
    ∃ t, walkRun stays body fuel xs s = .done t ∧ xs.foldlM step s = some t ∧ inv xs.length t := by
  induction xs generalizing fuel s inv with
  | nil => exact ⟨s,by cases fuel <;> rfl,rfl,start⟩
  | cons x rest ih =>
    obtain ⟨fuel,rfl⟩ : ∃ more, fuel = more + 1 := by
      rw [List.length_cons] at enough
      exact ⟨fuel - 1,by omega⟩
    obtain ⟨t,ran,stepped,next⟩ := kept 0 (by simp) s start
    obtain ⟨u,walked,folded,last⟩ := ih (fun y member => advances y (List.mem_cons_of_mem x member)) (by simpa using enough)
      (fun i => inv (i + 1)) next fun i h => kept (i + 1) (by simpa using h)
    have here : body x s = .done t := ran
    refine ⟨u,?_,?_,last⟩
    · rw [walkRun,advances x (by simp),if_neg (by decide),here]
      exact walked
    · rw [List.foldlM_cons]
      exact Option.bind_eq_some_iff.mpr ⟨t,stepped,folded⟩

theorem walkRun_undone (never : ∀ s t, body x s ≠ .done t) (fuel : Nat) (rest : List α) (s t : σ) :
    walkRun stays body fuel (x :: rest) s ≠ .done t := by
  cases moves : stays x with
  | true =>
    rw [walkRun_stays moves]
    exact fun same => by cases same
  | false =>
    cases fuel with
    | zero => exact fun same => by cases same
    | succ =>
      rw [walkRun,moves,if_neg (by decide)]
      cases ran : body x s with
      | done u => exact absurd ran (never s u)
      | fault | going => exact fun same => by cases same

theorem walkRun_going (ends_not : ∀ s, body x s = .going) (fuel : Nat) (rest : List α) (s : σ) :
    walkRun stays body fuel (x :: rest) s = .going := by
  cases moves : stays x with
  | true => exact walkRun_stays moves fuel rest s
  | false =>
    cases fuel with
    | zero => rfl
    | succ => rw [walkRun,moves,if_neg (by decide),ends_not,Run.going_bind]

end Walk

theorem forRun_going {body : Nat → σ → Run σ} (some_round : lo < hi) (ends_not : ∀ s, body lo s = .going) (s : σ) :
    forRun lo hi body s = .going := by
  obtain ⟨more,count⟩ : ∃ more, hi - lo = more + 1 := ⟨hi - lo - 1,by omega⟩
  rw [forRun,count,rounds,ends_not,Run.going_bind]

end Guarded

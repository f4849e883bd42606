import Mathlib.Data.List.Range

namespace Loops

def forRange (lo hi : Nat) (body : Nat → σ → σ) (s : σ) : σ :=
  (List.range' lo (hi - lo)).foldl (fun s i => body i s) s

-- No value is a loop that never ends.
def forStep (hi step : Nat) (body : Nat → σ → σ) (s : σ) : Option σ :=
  if step = 0 ∧ 0 < hi then none
  else some (forRange 0 ((hi + step - 1) / step) (fun t => body (t * step)) s)

-- for(i = lo; i < hi; i++) with a return statement in its body.
def forTry (lo hi : Nat) (body : Nat → σ → Except ε σ) (s : σ) : Except ε σ :=
  (List.range' lo (hi - lo)).foldlM (fun s i => body i s) s

def forSome (lo hi : Nat) (body : Nat → σ → Option σ) (s : σ) : Option σ :=
  (List.range' lo (hi - lo)).foldlM (fun s i => body i s) s

theorem forRange_empty (bounds : hi ≤ lo) (body : Nat → σ → σ) (s : σ) : forRange lo hi body s = s := by
  have none_left : hi - lo = 0 := by omega
  simp [forRange,none_left]

theorem forRange_next (bounds : lo ≤ hi) (body : Nat → σ → σ) (s : σ) :
    forRange lo (hi + 1) body s = body hi (forRange lo hi body s) := by
  have count : hi + 1 - lo = (hi - lo) + 1 := by omega
  have last : lo + (hi - lo) = hi := by omega
  simp [forRange,count,List.range'_1_concat,last]

theorem forTry_empty (bounds : hi ≤ lo) (body : Nat → σ → Except ε σ) (s : σ) : forTry lo hi body s = .ok s := by
  have none_left : hi - lo = 0 := by omega
  simp [forTry,none_left,pure,Except.pure]

theorem forTry_next (bounds : lo ≤ hi) (body : Nat → σ → Except ε σ) (s : σ) :
    forTry lo (hi + 1) body s = forTry lo hi body s >>= body hi := by
  have count : hi + 1 - lo = (hi - lo) + 1 := by omega
  have last : lo + (hi - lo) = hi := by omega
  simp [forTry,count,List.range'_1_concat,last]

theorem forRange_rule (inv : Nat → σ → Prop) (bounds : lo ≤ hi) (start : inv lo s)
    (kept : ∀ i s, lo ≤ i → i < hi → inv i s → inv (i + 1) (body i s)) : inv hi (forRange lo hi body s) := by
  obtain ⟨count,rfl⟩ := Nat.exists_eq_add_of_le bounds
  clear bounds
  induction count with
  | zero => rwa [Nat.add_zero,forRange_empty (Nat.le_refl _)]
  | succ count ih =>
    rw [← Nat.add_assoc,forRange_next (by omega)]
    exact kept _ _ (by omega) (by omega) (ih fun i s low high => kept i s low (by omega))

theorem forRange_keeps (inv : σ → Prop) (start : inv s)
    (kept : ∀ i s, lo ≤ i → i < hi → inv s → inv (body i s)) : inv (forRange lo hi body s) := by
  by_cases bounds : lo ≤ hi
  · exact forRange_rule (fun _ => inv) bounds start kept
  · rwa [forRange_empty (by omega)]

theorem forTry_rule (inv : Nat → σ → Prop) (exit : ε → Prop) (bounds : lo ≤ hi) (start : inv lo s)
    (kept : ∀ i s, lo ≤ i → i < hi → inv i s →
      (∀ t, body i s = .ok t → inv (i + 1) t) ∧ (∀ e, body i s = .error e → exit e)) :
    (∀ t, forTry lo hi body s = .ok t → inv hi t) ∧ (∀ e, forTry lo hi body s = .error e → exit e) := by
  obtain ⟨count,rfl⟩ := Nat.exists_eq_add_of_le bounds
  clear bounds
  induction count with
  | zero =>
    rw [Nat.add_zero,forTry_empty (Nat.le_refl _)]
    constructor
    · intro t done
      cases done
      exact start
    · intro e stopped
      cases stopped
  | succ count ih =>
    obtain ⟨ended,left⟩ := ih fun i s low high => kept i s low (by omega)
    rw [← Nat.add_assoc,forTry_next (by omega)]
    cases ran : forTry lo (lo + count) body s with
    | error e =>
      constructor
      · intro t done
        cases done
      · intro _ stopped
        cases stopped
        exact left e ran
    | ok t =>
      exact kept _ t (by omega) (by omega) (ended t ran)

section
variable (inv : Nat → σ → Prop) (xs : List α) (start : inv 0 s)
include start

theorem foldlM_returns
    (kept : ∀ i (h : i < xs.length) s, inv i s → ∃ t, body s xs[i] = some t ∧ inv (i + 1) t) :
    ∃ t, xs.foldlM body s = some t ∧ inv xs.length t := by
  induction xs generalizing inv s with
  | nil => exact ⟨s,rfl,start⟩
  | cons x xs ih =>
    obtain ⟨t,ran,next⟩ := kept 0 (by simp) s start
    obtain ⟨u,rest,last⟩ := ih (fun i => inv (i + 1)) next fun i h => kept (i + 1) (by simpa using h)
    refine ⟨u,?_,last⟩
    exact Option.bind_eq_some_iff.mpr ⟨t,ran,rest⟩

theorem foldlM_keeps
    (kept : ∀ i (h : i < xs.length) s t, inv i s → body s xs[i] = some t → inv (i + 1) t)
    (returned : xs.foldlM body s = some t) : inv xs.length t := by
  induction xs generalizing inv s with
  | nil =>
    cases returned
    exact start
  | cons x xs ih =>
    obtain ⟨u,ran,rest⟩ := Option.bind_eq_some_iff.mp returned
    exact ih (fun i => inv (i + 1)) (kept 0 (by simp) s u start ran) (fun i h => kept (i + 1) (by simpa using h)) rest

end

section
variable {f : σ → α → Except ε σ}
include f

theorem exceptFold_cons : (x :: xs).foldlM f s = .ok t ↔ ∃ u, f s x = .ok u ∧ xs.foldlM f u = .ok t := by
  rw [List.foldlM_cons]
  cases ran : f s x with
  | error =>
    constructor
    · intro done
      cases done
    · rintro ⟨u,done,_⟩
      cases done
  | ok u =>
    constructor
    · exact fun done => ⟨u,rfl,done⟩
    · rintro ⟨_,same,done⟩
      cases same
      exact done

section
variable (inv : σ → Prop) (xs : List α) (start : inv s)
include start

theorem exceptFold_keeps
    (kept : ∀ s, ∀ x ∈ xs, ∀ t, inv s → f s x = .ok t → inv t) (ran : xs.foldlM f s = .ok t) : inv t := by
  induction xs generalizing s with
  | nil =>
    cases ran
    exact start
  | cons x xs ih =>
    obtain ⟨u,first,rest⟩ := exceptFold_cons.mp ran
    exact ih (kept s x (List.mem_cons_self ..) u start first) (fun s y member => kept s y (List.mem_cons_of_mem _ member)) rest

theorem exceptFold_returns (kept : ∀ s x, inv s → ∃ t, f s x = .ok t ∧ inv t) : ∃ t, xs.foldlM f s = .ok t ∧ inv t := by
  induction xs generalizing s with
  | nil => exact ⟨s,rfl,start⟩
  | cons x xs ih =>
    obtain ⟨u,first,holds⟩ := kept s x start
    obtain ⟨t,rest,last⟩ := ih holds
    exact ⟨t,exceptFold_cons.mpr ⟨u,first,rest⟩,last⟩

theorem exceptFold_stops
    (kept : ∀ s x t, inv s → f s x = .ok t → inv t) (stopped : xs.foldlM f s = .error e) : ∃ s x, inv s ∧ f s x = .error e := by
  induction xs generalizing s with
  | nil => cases stopped
  | cons x xs ih =>
    rw [List.foldlM_cons] at stopped
    cases ran : f s x with
    | error =>
      rw [ran] at stopped
      cases stopped
      exact ⟨s,x,start,ran⟩
    | ok u =>
      rw [ran] at stopped
      exact ih (kept s x u start ran) stopped

end

theorem exceptFold_follows {g : τ → α → Except ε τ} (image : σ → τ) (xs : List α)
    (follows : ∀ s x t, f s x = .ok t → g (image s) x = .ok (image t)) (ran : xs.foldlM f s = .ok t) :
    xs.foldlM g (image s) = .ok (image t) := by
  induction xs generalizing s with
  | nil =>
    cases ran
    rfl
  | cons x xs ih =>
    obtain ⟨u,first,rest⟩ := exceptFold_cons.mp ran
    exact exceptFold_cons.mpr ⟨image u,follows s x u first,ih rest⟩

end

def foldUses (body : σ → α → σ) (uses : σ → α → List β) (s : σ) : List α → List β
  | [] => []
  | x :: xs => uses s x ++ foldUses body uses (body s x) xs

def foldAll (body : σ → α → σ) (p : σ → α → Prop) (s : σ) : List α → Prop
  | [] => True
  | x :: xs => p s x ∧ foldAll body p (body s x) xs

theorem foldUses_iff {ok : β → Prop} (inv : σ → Prop) (xs : List α)
    (start : inv s) (kept : ∀ s, ∀ x ∈ xs, inv s → inv (body s x)) (each : ∀ s, ∀ x ∈ xs, inv s → ((∀ u ∈ uses s x, ok u) ↔ p s x)) :
    (∀ u ∈ foldUses body uses s xs, ok u) ↔ foldAll body p s xs := by
  induction xs generalizing s with
  | nil => exact iff_of_true nofun trivial
  | cons x xs ih =>
    have head := each s x (List.mem_cons_self ..) start
    have tail := ih (kept s x (List.mem_cons_self ..) start) (fun s y member => kept s y (List.mem_cons_of_mem _ member))
      fun s y member => each s y (List.mem_cons_of_mem _ member)
    rw [foldUses,foldAll,List.forall_mem_append,head,tail]

theorem foldAll_of (inv : σ → Prop) (xs : List α) (start : inv s)
    (each : ∀ s, ∀ x ∈ xs, inv s → p s x ∧ inv (body s x)) : foldAll body p s xs := by
  induction xs generalizing s with
  | nil => trivial
  | cons x xs ih =>
    obtain ⟨holds,next⟩ := each s x (List.mem_cons_self ..) start
    exact ⟨holds,ih next fun s y member => each s y (List.mem_cons_of_mem _ member)⟩

theorem forStep_ends (positive : 0 < step) (body : Nat → σ → σ) (s : σ) :
    forStep hi step body s = some (forRange 0 ((hi + step - 1) / step) (fun t => body (t * step)) s) := by
  have nonzero : ¬(step = 0 ∧ 0 < hi) := by omega
  simp [forStep,nonzero]

theorem block_parts (row : m < p) (i : Nat) : (i * p + m) / p = i ∧ (i * p + m) % p = m := by
  constructor
  · rw [Nat.mul_comm,Nat.mul_add_div (by omega),Nat.div_eq_of_lt row,Nat.add_zero]
  · rw [Nat.add_comm,Nat.add_mul_mod_self_right,Nat.mod_eq_of_lt row]

theorem whole_block (positive : 0 < step) (inside : o < step * (hi / step)) :
    o / step < (hi + step - 1) / step ∧ o / step * step + o % step = o ∧ o % step < step := by
  have block : o / step < hi / step := Nat.div_lt_of_lt_mul inside
  have rounded : hi / step ≤ (hi + step - 1) / step := Nat.div_le_div_right (by omega)
  have parts := Nat.div_add_mod' o step
  exact ⟨by omega,parts,Nat.mod_lt _ positive⟩

theorem rows_count (k : Nat) (positive : 0 < p) : (k * p + p - 1) / p = k := by
  rw [Nat.add_sub_assoc positive,Nat.mul_comm,Nat.mul_add_div positive,Nat.div_eq_of_lt (by omega),Nat.add_zero]

theorem forRange_down (m : Nat → α) (a d n b : Nat) :
    forRange 0 n (fun i m => Function.update m (a + i) (m (a + i + d))) m b =
      if a ≤ b ∧ b < a + n then m (b + d) else m b := by
  refine forRange_rule (fun i (after : Nat → α) => ∀ b, after b = if a ≤ b ∧ b < a + i then m (b + d) else m b)
    (Nat.zero_le n) ?_ ?_ b
  · intro b
    rw [if_neg (by omega)]
  intro i _ _ _ moved b
  by_cases here : b = a + i
  · subst b
    rw [Function.update_self,moved,if_pos (show a ≤ a + i ∧ a + i < a + (i + 1) by omega)]
    by_cases shift : d = 0
    · subst d
      rw [Nat.add_zero]
      exact ite_self _
    · rw [if_neg (by omega)]
  · rw [Function.update_of_ne here,moved]
    congr 1
    exact propext (by omega)

theorem forRange_up (m : Nat → α) (a d n b : Nat) :
    forRange 0 n (fun i m => Function.update m (a + (n - 1) + d - i) (m (a + (n - 1) - i))) m b =
      if a + d ≤ b ∧ b < a + d + n then m (b - d) else m b := by
  refine (forRange_rule (fun i (after : Nat → α) => i ≤ n → ∀ b, after b =
    if a + d + n - i ≤ b ∧ b < a + d + n then m (b - d) else m b) (Nat.zero_le n) ?_ ?_ (Nat.le_refl n) b).trans ?_
  · intro _ b
    rw [if_neg (by omega)]
  · intro i _ _ _ moved _ b
    by_cases here : b = a + (n - 1) + d - i
    · subst b
      have source : a + (n - 1) + d - i - d = a + (n - 1) - i := by omega
      rw [Function.update_self,moved (by omega),source,
        if_pos (show a + d + n - (i + 1) ≤ a + (n - 1) + d - i ∧ a + (n - 1) + d - i < a + d + n by omega)]
      by_cases shift : d = 0
      · subst d
        rw [Nat.sub_zero]
        exact ite_self _
      · rw [if_neg (by omega)]
    · rw [Function.update_of_ne here,moved (by omega)]
      congr 1
      exact propext (by omega)
  · congr 1
    exact propext (by omega)

-- No value is a loop that is still running when the fuel is used up.
def whileM (cond : σ → Bool) (body : σ → Option σ) : Nat → σ → Option σ
  | 0,s => if cond s then none else some s
  | fuel + 1,s => if cond s then (body s).bind (whileM cond body fuel) else some s

section While

variable {σ : Type u} (cond : σ → Bool) (body : σ → Option σ) (fuel : Nat)

theorem whileM_stop (stopped : cond s = false) : whileM cond body fuel s = some s := by
  cases fuel with
  | zero | succ => simp [whileM,stopped]

theorem whileM_next (going : cond s = true) (ran : body s = some t) :
    whileM cond body (fuel + 1) s = whileM cond body fuel t := by
  simp [whileM,going,ran]

theorem whileM_keeps {cond : σ → Bool} {body : σ → Option σ} {fuel : Nat} (inv : σ → Prop) (start : inv s)
    (kept : ∀ s t, inv s → cond s = true → body s = some t → inv t)
    (ran : whileM cond body fuel s = some t) : inv t ∧ cond t = false := by
  induction fuel generalizing s with
  | zero =>
    cases going : cond s with
    | true => simp [whileM,going] at ran
    | false =>
      rw [whileM_stop cond body _ going] at ran
      cases ran
      exact ⟨start,going⟩
  | succ fuel ih =>
    cases going : cond s with
    | true =>
      simp only [whileM,going] at ran
      obtain ⟨u,first,rest⟩ := Option.bind_eq_some_iff.mp ran
      exact ih (kept s u start going first) rest
    | false =>
      rw [whileM_stop cond body _ going] at ran
      cases ran
      exact ⟨start,going⟩

theorem whileM_returns (inv : σ → Prop) (left : σ → Nat) (start : inv s)
    (kept : ∀ s, inv s → cond s = true → ∃ t, body s = some t ∧ inv t ∧ left t < left s)
    (enough : left s ≤ fuel) : ∃ t, whileM cond body fuel s = some t ∧ inv t ∧ cond t = false := by
  induction fuel generalizing s with
  | zero =>
    cases going : cond s with
    | true =>
      obtain ⟨t,_,_,_⟩ := kept s start going
      omega
    | false => exact ⟨s,whileM_stop cond body _ going,start,going⟩
  | succ fuel ih =>
    cases going : cond s with
    | true =>
      obtain ⟨u,first,holds,_⟩ := kept s start going
      rw [whileM_next cond body fuel going first]
      exact ih holds (by omega)
    | false => exact ⟨s,whileM_stop cond body _ going,start,going⟩

theorem whileM_rounds (n : Nat) (inv : Nat → σ → Prop) (start : inv 0 s)
    (kept : ∀ k s, k < n → inv k s → cond s = true → ∃ t, body s = some t ∧ inv (k + 1) t)
    (last : ∀ s, inv n s → cond s = false) (enough : n ≤ fuel) :
    ∃ k t, k ≤ n ∧ whileM cond body fuel s = some t ∧ inv k t ∧ cond t = false := by
  induction n generalizing inv s fuel with
  | zero => exact ⟨0,s,Nat.le_refl _,whileM_stop cond body _ (last s start),start,last s start⟩
  | succ n ih =>
    cases going : cond s with
    | true =>
      obtain ⟨fuel,rfl⟩ : ∃ more, fuel = more + 1 := ⟨fuel - 1,by omega⟩
      obtain ⟨u,first,holds⟩ := kept 0 s (by omega) start going
      obtain ⟨k,t,_,ran,holds,stopped⟩ := ih fuel (fun k => inv (k + 1)) holds
        (fun k s small => kept (k + 1) s (by omega)) last (by omega)
      rw [whileM_next cond body fuel going first]
      exact ⟨k + 1,t,by omega,ran,holds,stopped⟩
    | false => exact ⟨0,s,by omega,whileM_stop cond body _ going,start,going⟩

end While

theorem ring_inj (apart : m < n) (within : n < m + size) (i : Nat) : (i + m) % size ≠ (i + n) % size := by
  intro same
  have multiple : (n - m) % size = 0 := by
    have difference := Nat.sub_mod_eq_zero_of_mod_eq same.symm
    rwa [Nat.add_sub_add_left] at difference
  rw [Nat.mod_eq_of_lt (by omega)] at multiple
  omega

theorem ring_next (i k size : Nat) : ((i + k) % size + 1) % size = (i + (k + 1)) % size := by
  rw [Nat.mod_add_mod,Nat.add_assoc]

theorem ring_cover {p : Nat} (inside : i < size) (place : p < size) : ∃ m, m < size ∧ p = (i + m) % size := by
  by_cases before : i ≤ p
  · refine ⟨p - i,by omega,?_⟩
    rw [Nat.mod_eq_of_lt (by omega)]
    omega
  · refine ⟨p + size - i,by omega,?_⟩
    have around : i + (p + size - i) = p + size := by omega
    rw [around,Nat.add_mod_right,Nat.mod_eq_of_lt place]

end Loops

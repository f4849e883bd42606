import Mac80211.MncDecode
import Mac80211.MncGeneration

namespace Mac80211.MncRx
open Gf Loops Finset LinearSystems
open Function (update update_of_ne update_self)

theorem fill_rows (f : Nat → Nat → UInt8) (k p : Nat) (b : Nat → UInt8) :
    ∀ j < k, ∀ l < p, forRange 0 k (fun j b => forRange 0 p (fun l b =>
      update b (j * p + l) (f j l)) b) b (j * p + l) = f j l := by
  refine forRange_rule (fun n (b : Nat → UInt8) => ∀ j < n, ∀ l < p, b (j * p + l) = f j l) (Nat.zero_le k) ?_ ?_
  · intro j bound; omega
  intro n b _ _ filled
  have row := @forRange_rule _ 0 p b (fun l b => update b (n * p + l) (f n l))
    (fun i (b : Nat → UInt8) => (∀ j < n, ∀ l < p, b (j * p + l) = f j l) ∧ ∀ l < i, b (n * p + l) = f n l)
    (Nat.zero_le p) ⟨filled,fun l bound => by omega⟩ ?_
  · intro j bound l column
    by_cases here : j = n
    · subst j; exact row.2 l column
    · exact row.1 j (by omega) l column
  rintro i b _ _ ⟨before,this_row⟩
  constructor
  · intro j bound l column
    have inside := MncTx.position_lt bound column
    rw [update_of_ne (by omega)]
    exact before j bound l column
  · intro l _
    by_cases here : l = i
    · subst l; rw [update_self]
    · rw [update_of_ne (by omega)]
      exact this_row l (by omega)

theorem fillB_row (small : j < k) (row : l < p) :
    fillB k p mncheadsize isSys skb i (j * p + l) = (skb j).byte ((if isSys j then 3 else mncheadsize) + i + l) :=
  fill_rows (fun j l => (skb j).byte ((if isSys j then 3 else mncheadsize) + i + l)) k p (fun _ => 0) j small l row

theorem subtract_row (coefficients : Nat → UInt8) (n : Nat) (x : Nat → UInt8) (bounds : lo ≤ hi) (apart : n < lo ∨ hi ≤ n) :
    (let after := forRange lo hi (fun l x => update x n (gsub (x n) (gmul (coefficients l) (x l)))) x
    bytes after n = bytes x n - ∑ l ∈ Ico lo hi, bytes coefficients l * bytes x l ∧ ∀ a, a ≠ n → after a = x a) := by
  refine forRange_rule (fun i (after : Nat → UInt8) => i ≤ hi → bytes after n = bytes x n - ∑ l ∈ Ico lo i, bytes coefficients l * bytes x l ∧
    ∀ a, a ≠ n → after a = x a) bounds ?_ ?_ (Nat.le_refl _)
  · simp
  intro i after low _ kept _
  obtain ⟨sum,frame⟩ := kept (by omega)
  constructor
  · have taken : bytes (update after n (gsub (after n) (gmul (coefficients i) (after i)))) n =
        bytes after n - bytes coefficients i * bytes after i := by
      simp [bytes]
    have same : bytes after i = bytes x i := by
      simp only [bytes]
      rw [frame i (by omega)]
    rw [taken,sum,same,sum_Ico_succ_top low]
    ring
  · intro a other
    rw [update_of_ne other,frame a other]

-- Rows above are final when row j is reached; the equations of L hold from the top down.
theorem solveL_forward (msize : Nat) (L : Nat → Nat → UInt8) (b : Nat → UInt8) : ∀ j < msize, bytes (solveL msize L b) j =
      bytes b j - ∑ l ∈ range j, bytes (L j) l * bytes (solveL msize L b) l := by
  refine forRange_rule (fun n (y : Nat → UInt8) => ∀ j < n, bytes y j = bytes b j - ∑ l ∈ range j, bytes (L j) l * bytes y l)
    (Nat.zero_le msize) ?_ ?_
  · intro j bound; omega
  intro n y _ _ solved j _
  obtain ⟨sum,frame⟩ := subtract_row (L n) n (update y n (b n)) (Nat.zero_le n) (.inr (Nat.le_refl n))
  have kept : ∀ l < n, bytes (forRange 0 n (fun l y =>
      update y n (gsub (y n) (gmul (L n l) (y l)))) (update y n (b n))) l = bytes y l := by
    intro l _
    simp only [bytes]
    rw [frame l (by omega),update_of_ne (by omega)]
  have target : bytes (update y n (b n)) n = bytes b n := by simp [bytes]
  by_cases here : j = n
  · subst j
    rw [sum,target,← range_eq_Ico]
    congr 1
    refine sum_congr rfl fun l member => ?_
    have inside := mem_range.mp member
    rw [kept l inside]
    simp only [bytes]
    rw [update_of_ne (by omega)]
  · rw [kept j (by omega),solved j (by omega)]
    congr 1
    refine sum_congr rfl fun l member => ?_
    have inside := mem_range.mp member
    rw [kept l (by omega)]

theorem solveU_backward (msize : Nat) (U : Nat → Nat → UInt8) (y x : Nat → UInt8) (diagonal : ∀ i < msize, U i i ≠ 0) :
    ∀ n < msize, bytes (solveU msize U y x) n =
      (bytes y n - ∑ l ∈ Ico (n + 1) msize, bytes (U n) l * bytes (solveU msize U y x) l) / bytes (U n) n := by
  have all := @forRange_rule _ 0 msize x (fun j x =>
      let n := msize - 1 - j
      if U n n = 0 then x
      else
        let x := forRange (n + 1) msize (fun l x =>
          update x n (gsub (x n) (gmul (U n l) (x l)))) (update x n (y n))
        update x n (gdiv (x n) (U n n)))
    (fun t (x : Nat → UInt8) => ∀ n < msize, msize ≤ n + t → bytes x n =
      (bytes y n - ∑ l ∈ Ico (n + 1) msize, bytes (U n) l * bytes x l) / bytes (U n) n) (Nat.zero_le msize) ?_ ?_
  · intro n small
    exact all n small (by omega)
  · intro n bound _; omega
  intro t x _ _ solved n bound _
  rw [if_neg (diagonal _ (by omega))]
  generalize current : msize - 1 - t = r
  obtain ⟨sum,frame⟩ := subtract_row (U r) r (update x r (y r)) (show r + 1 ≤ msize by omega) (.inl (Nat.lt_succ_self r))
  generalize forRange (r + 1) msize (fun l x =>
    update x r (gsub (x r) (gmul (U r l) (x l)))) (update x r (y r)) = after at *
  have kept : ∀ l, l ≠ r → bytes (update after r (gdiv (after r) (U r r))) l = bytes x l := by
    intro l other
    simp only [bytes]
    rw [update_of_ne other,frame l other,update_of_ne other]
  have above : ∀ n, r ≤ n → ∑ l ∈ Ico (n + 1) msize, bytes (U n) l * bytes (update after r (gdiv (after r) (U r r))) l =
      ∑ l ∈ Ico (n + 1) msize, bytes (U n) l * bytes x l := by
    intro n _
    refine sum_congr rfl fun l member => ?_
    have inside := mem_Ico.mp member
    rw [kept l (by omega)]
  by_cases here : n = r
  · subst n
    rw [above r (Nat.le_refl r)]
    have target : bytes (update after r (gdiv (after r) (U r r))) r = bytes after r / bytes (U r) r := by
      simp [bytes]
    have source : bytes (update x r (y r)) r = bytes y r := by simp [bytes]
    rw [target,sum,source]
    congr 2
    refine sum_congr rfl fun l member => ?_
    have inside := mem_Ico.mp member
    simp only [bytes]
    rw [update_of_ne (by omega)]
  · rw [above n (by omega),kept n here]
    exact solved n bound (by omega)

theorem putX_apply (k p i : Nat) (x : Nat → UInt8) (newskb : Nat → Skb) (j : Nat) :
    putX k p i x newskb j = {newskb j with mem := (putX k p i x newskb j).mem} ∧ ∀ o, (putX k p i x newskb j).byte o =
        if j < k ∧ i ≤ o ∧ o < i + p then x (j * p + (o - i)) else (newskb j).byte o := by
  refine forRange_rule (fun n (after : Nat → Skb) => ∀ j, after j = {newskb j with mem := (after j).mem} ∧
    ∀ o, (after j).byte o = if j < n ∧ i ≤ o ∧ o < i + p then x (j * p + (o - i)) else (newskb j).byte o)
    (Nat.zero_le k) ?_ ?_ j
  · intro j
    exact ⟨rfl,fun o => by rw [if_neg (by omega)]⟩
  intro n after _ _ put j
  have row := @forRange_rule _ 0 p after (fun l newskb =>
      update newskb n ((newskb n).store (i + l) (x (n * p + l))))
    (fun l (now : Nat → Skb) => (∀ j, j ≠ n → now j = after j) ∧ now n = {newskb n with mem := (now n).mem} ∧
      ∀ o, (now n).byte o = if i ≤ o ∧ o < i + l then x (n * p + (o - i)) else (newskb n).byte o)
    (Nat.zero_le p) ⟨fun _ _ => rfl,(put n).1,?_⟩ ?_
  · obtain ⟨others,packet,content⟩ := row
    by_cases here : j = n
    · subst j
      refine ⟨packet,fun o => ?_⟩
      rw [content]
      congr 1
      exact propext (by omega)
    · rw [others j here]
      refine ⟨(put j).1,fun o => ?_⟩
      rw [(put j).2]
      congr 1
      exact propext (by omega)
  · intro o
    rw [(put n).2,if_neg (by omega),if_neg (by omega)]
  rintro l _ _ _ ⟨others,packet,content⟩
  refine ⟨?_,?_,?_⟩
  · intro j other
    rw [update_of_ne other,others j other]
  · rw [update_self,Skb.store,packet]
  · intro o
    rw [update_self,Skb.byte_store,content]
    by_cases here : o = i + l
    · subst o
      rw [if_pos rfl,if_pos (by omega),Nat.add_sub_cancel_left]
    · rw [if_neg here]
      congr 1
      exact propext (by omega)

section
variable {A : Nat → Nat → GF} {U L : Nat → Nat → UInt8} (factors : Factors (k * p) A (fun i => bytes (L i)) (fun i => bytes (U i)) pivot)
  (regular : (square (k * p) A).det ≠ 0)
include A U L factors regular

theorem substiBlock_solves
    (solution : Solves (k * p) A z fun r => bytes (fillB k p mncheadsize isSys skb i) r) (s : Substitution) :
    ∀ r < k * p, bytes (substiBlock (k * p) k p U L pivot skb mncheadsize isSys i s).x r = z r := by
  have diagonal : ∀ r < k * p, bytes (U r) r ≠ 0 := factors.regular.mp regular
  have upper : ∀ r < k * p, U r r ≠ 0 := by
    intro r small zero
    exact diagonal r small (GF.ext zero)
  let y := solveL (k * p) L fun j => fillB k p mncheadsize isSys skb i (pivot j)
  have first : Solves (k * p) (fun i => bytes (L i)) (fun r => bytes y r) fun r =>
      bytes (fillB k p mncheadsize isSys skb i) (pivot r) :=
    forward factors.unit factors.lower (solveL_forward (k * p) L _)
  have second : Solves (k * p) (fun i => bytes (U i)) (fun r => bytes (solveU (k * p) U y s.x) r) fun r => bytes y r :=
    backward factors.upper diagonal (solveU_backward (k * p) U y s.x upper)
  exact solution_unique regular (factors.solves first second) solution

theorem skbSubsti_solves (positive : 0 < p) (skb newskb : Nat → Skb) (len mncheadsize : Nat) (isSys : Nat → Bool) :
    ∃ after, skbSubsti (k * p) k p U L pivot skb newskb len mncheadsize isSys = some after ∧ ∀ j,
      after j = {newskb j with mem := (after j).mem} ∧ (j < k → ∀ t < (len + p - 1) / p, ∀ z : Nat → GF,
        Solves (k * p) A z (fun r => bytes (fillB k p mncheadsize isSys skb (t * p)) r) →
          ∀ l < p, bytes (after j).byte (t * p + l) = z (j * p + l)) := by
  rw [skbSubsti,forStep_ends positive]
  refine ⟨_,rfl,?_⟩
  refine forRange_rule (fun n (s : Substitution) => ∀ j, s.newskb j = {newskb j with mem := (s.newskb j).mem} ∧
    (j < k → ∀ t < n, ∀ z : Nat → GF, Solves (k * p) A z (fun r => bytes (fillB k p mncheadsize isSys skb (t * p)) r) →
      ∀ l < p, bytes (s.newskb j).byte (t * p + l) = z (j * p + l))) (Nat.zero_le _) ?_ ?_
  · exact fun j => ⟨rfl,fun _ t bound => by omega⟩
  intro n s _ _ solved j
  obtain ⟨packet,content⟩ := putX_apply k p (n * p)
    (substiBlock (k * p) k p U L pivot skb mncheadsize isSys (n * p) s).x s.newskb j
  refine ⟨packet.trans (by rw [(solved j).1]; rfl),?_⟩
  intro small t _ z solution l row
  have place : (substiBlock (k * p) k p U L pivot skb mncheadsize isSys (n * p) s).newskb j =
    putX k p (n * p) (substiBlock (k * p) k p U L pivot skb mncheadsize isSys (n * p) s).x s.newskb j := rfl
  by_cases here : t = n
  · subst t
    have value := substiBlock_solves factors regular solution s (j * p + l) (MncTx.position_lt small row)
    simp only [bytes] at value ⊢
    rw [place,content,if_pos (by omega),Nat.add_sub_cancel_left,value]
  · have before := MncTx.position_lt (show t < n by omega) row
    have value := (solved j).2 small t (by omega) z solution l row
    simp only [bytes] at value ⊢
    rw [place,content,if_neg (by omega),value]

end

end Mac80211.MncRx

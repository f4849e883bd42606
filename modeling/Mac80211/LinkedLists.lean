import Mac80211.LinkedList

namespace LinkedList

open Function (update update_of_ne update_self)
open Option (map_eq_some_iff map_some bind_some)

def AllLinked (s : Store ι α) (cells : ι → List (Nat × α)) : Prop := ∀ l, Linked s l (cells l)

structure Store.KeepsLoose (s t : Store ι α) : Prop where
  brk : s.brk ≤ t.brk
  nodes : ∀ a n, a < s.brk → s.nodes a = some n → n.list = none → t.nodes a = some n

-- while(p != NULL){ ..; p = p->next; }
def Store.each (body : Nat → Store ι α → Option (Store ι α)) : Nat → Option Nat → Store ι α → Option (Store ι α)
  | _,none,s => some s
  | 0,some _,_ => none
  | fuel + 1,some a,s => (body a s).bind fun t => (t.nodes a).bind fun n => Store.each body fuel n.next t

section lists
variable {s : Store ι α}

theorem Store.KeepsLoose.refl (s : Store ι α) : s.KeepsLoose s := ⟨Nat.le_refl _,fun _ _ _ node _ => node⟩

theorem Store.KeepsLoose.trans (first : s.KeepsLoose t) (second : t.KeepsLoose u) : s.KeepsLoose u :=
  ⟨Nat.le_trans first.brk second.brk,fun a n old node loose =>
    second.nodes a n (Nat.lt_of_lt_of_le old first.brk) (first.nodes a n old node loose) loose⟩

theorem Linked.frame (linked : Linked s k xs) (nodes : ∀ cell ∈ xs, t.nodes cell.1 = s.nodes cell.1)
    (head : t.heads k = s.heads k) (brk : s.brk ≤ t.brk) : Linked t k xs := by
  obtain ⟨final,segment⟩ := linked.segment
  constructor
  · exact ⟨final,head ▸ segment_frame nodes segment⟩
  · exact linked.distinct
  · rw [head]
    exact linked.count
  · intro cell member
    exact Nat.lt_of_lt_of_le (linked.allocated cell member) brk

theorem segment_final (segment : Segment nodes l prev ptr xs final tail) :
    final = prev ∨ ∃ b ∈ xs.map Prod.fst, final = some b := by
  induction xs generalizing prev ptr with
  | nil => exact .inl segment.2
  | cons cell rest ih =>
    obtain ⟨_,_,_,segment⟩ := segment
    rcases ih segment with first | ⟨b,member,last⟩
    · exact .inr ⟨cell.1,by simp,first⟩
    · exact .inr ⟨b,List.mem_cons_of_mem _ member,last⟩

theorem segment_start (segment : Segment nodes l prev ptr xs final none) :
    ptr = xs.head?.map Prod.fst := by
  cases xs with
  | nil | cons => exact segment.1

theorem Linked.links (linked : Linked s l (xs ++ (a,v) :: ys)) :
    ∃ n, s.nodes a = some n ∧ n.val = v ∧ n.list = some l ∧ n.next = ys.head?.map Prod.fst ∧
      (∀ m, n.prev = some m → m ∈ (xs ++ (a,v) :: ys).map Prod.fst) := by
  obtain ⟨_,segment⟩ := linked.segment
  obtain ⟨m,q,left,rfl,_,node,right⟩ := segment_append.mp segment
  refine ⟨_,node,rfl,rfl,segment_start right,?_⟩
  intro b behind
  rcases segment_final left with first | ⟨c,member,last⟩
  · rw [first] at behind
    cases behind
  · rw [last] at behind
    cases behind
    rw [List.map_append]
    exact List.mem_append_left _ member

theorem Linked.owner (linked : Linked s l xs) (member : a ∈ xs.map Prod.fst) :
    ∃ n, s.nodes a = some n ∧ n.list = some l := by
  obtain ⟨⟨b,v⟩,here,rfl⟩ := List.mem_map.mp member
  obtain ⟨_,_,rfl⟩ := List.append_of_mem here
  obtain ⟨n,node,_,list,_,_⟩ := linked.links
  exact ⟨n,node,list⟩

section
variable (all : AllLinked s cells)
include all

theorem AllLinked.owner (one : a ∈ (cells l).map Prod.fst) (other : a ∈ (cells k).map Prod.fst) : l = k := by
  obtain ⟨n,node,list⟩ := (all l).owner one
  obtain ⟨m,same,other⟩ := (all k).owner other
  rw [node] at same
  cases same
  rw [list] at other
  exact Option.some.inj other

theorem AllLinked.loose (node : s.nodes a = some n) (loose : n.list = none) (l : ι) : a ∉ (cells l).map Prod.fst := by
  intro member
  obtain ⟨m,same,list⟩ := (all l).owner member
  rw [node] at same
  cases same
  rw [loose] at list
  cases list

theorem AllLinked.fresh (l : ι) : s.brk ∉ (cells l).map Prod.fst := by
  intro member
  obtain ⟨cell,here,_⟩ := List.mem_map.mp member
  have bound := (all l).allocated cell here
  omega

theorem AllLinked.start (l : ι) : (s.heads l).next = (cells l).head?.map Prod.fst := by
  obtain ⟨_,segment⟩ := (all l).segment
  exact segment_start segment

theorem AllLinked.head_empty (empty : cells l = []) : s.heads l = ⟨none,0⟩ := by
  have next := all.start l
  have count := (all l).count
  rw [empty] at next count
  show (⟨(s.heads l).next,(s.heads l).qlen⟩ : Head) = ⟨none,0⟩
  rw [next,count]
  rfl

theorem AllLinked.free (outside : ∀ l, a ∉ (cells l).map Prod.fst) : AllLinked (s.release a) cells := by
  intro l
  apply (all l).frame
  · intro _ member
    apply update_of_ne
    intro same
    exact outside l (same ▸ List.mem_map_of_mem member)
  · rfl
  · exact Nat.le_refl _

theorem AllLinked.alloc (v : α) (list : Option ι) : AllLinked (s.alloc v list).2 cells := by
  intro l
  apply (all l).frame
  · intro _ member
    apply update_of_ne
    intro same
    exact all.fresh l (same ▸ List.mem_map_of_mem member)
  · rfl
  · exact Nat.le_succ _

theorem AllLinked.apart : ∀ a ∈ (cells l).map Prod.fst, ∀ k, k ≠ l → a ∉ (cells k).map Prod.fst := by
  intro a mine k other member
  exact other (all.owner member mine)

end

theorem last_member (segment : Segment s.nodes l prev (some b) xs final none)
    (found : s.last fuel b = some m) : m ∈ xs.map Prod.fst := by
  induction xs generalizing prev b fuel with
  | nil => cases segment.1
  | cons cell rest ih =>
    obtain ⟨here,next,node,segment⟩ := segment
    cases here
    cases fuel with
    | zero => cases found
    | succ =>
      simp only [Store.last,node] at found
      cases next with
      | none =>
        cases found
        exact List.mem_cons_self
      | some => exact List.mem_cons_of_mem _ (ih segment found)

section
variable {body : Nat → Store ι α → Option (Store ι α)}
include body

theorem each_steps (inv : List (Nat × α) → Store ι α → Prop)
    (linked : ∀ done s, inv done s → Linked s l whole)
    (kept : ∀ done cell rest, whole = done ++ cell :: rest → ∀ s, inv done s → ∃ t, body cell.1 s = some t ∧ inv (done ++ [cell]) t)
    (fuel : Nat) (enough : ys.length ≤ fuel) (split : whole = xs ++ ys) (s : Store ι α) (start : inv xs s) :
    ∃ t, Store.each body fuel (ys.head?.map Prod.fst) s = some t ∧ inv whole t := by
  induction ys generalizing xs fuel s with
  | nil =>
    rw [split,List.append_nil]
    refine ⟨s,?_,start⟩
    cases fuel with
    | zero => rfl
    | succ => rfl
  | cons cell rest ih =>
    obtain ⟨a,v⟩ := cell
    cases fuel with
    | zero => cases enough
    | succ fuel =>
      obtain ⟨t,ran,held⟩ := kept xs (a,v) rest split s start
      have here := linked _ t held
      rw [split] at here
      obtain ⟨n,node,_,_,next,_⟩ := here.links
      have moved : whole = (xs ++ [(a,v)]) ++ rest := by
        rw [List.append_assoc]
        exact split
      have later := ih fuel (Nat.le_of_succ_le_succ enough) moved t held
      simp only [List.head?_cons,map_some,Store.each,ran,bind_some,node,next]
      exact later

theorem each_walk (inv : List (Nat × α) → Store ι α → Prop) (linked : ∀ done s, inv done s → Linked s l ys)
    (kept : ∀ done cell rest, ys = done ++ cell :: rest → ∀ s, inv done s → ∃ t, body cell.1 s = some t ∧ inv (done ++ [cell]) t)
    (fuel : Nat) (enough : ys.length ≤ fuel) (start : inv [] s) :
    ∃ t, Store.each body fuel (s.heads l).next s = some t ∧ inv ys t := by
  obtain ⟨_,segment⟩ := (linked [] s start).segment
  rw [segment_start segment]
  exact each_steps inv linked kept fuel enough rfl s start

theorem each_rule (inv : Store ι α → Prop)
    (linked : ∀ s, inv s → Linked s l ys) (kept : ∀ cell ∈ ys, ∀ s, inv s → ∃ t, body cell.1 s = some t ∧ inv t)
    (fuel : Nat) (enough : ys.length ≤ fuel) (start : inv s) : ∃ t, Store.each body fuel (s.heads l).next s = some t ∧ inv t := by
  apply each_walk (fun _ => inv) (fun _ => linked) _ fuel enough start
  intro done cell _ split
  exact kept cell (split ▸ List.mem_append_right done List.mem_cons_self)

end

variable [DecidableEq ι]

theorem AllLinked.change (all : AllLinked s cells) (linked : Linked t l xs) (places : List Nat)
    (mine : ∀ a ∈ places, ∀ k, k ≠ l → a ∉ (cells k).map Prod.fst) (nodes : ∀ a, a ∉ places → t.nodes a = s.nodes a)
    (heads : ∀ k, k ≠ l → t.heads k = s.heads k) (brk : s.brk ≤ t.brk) : AllLinked t (update cells l xs) := by
  intro k
  by_cases same : k = l
  · subst same
    rw [update_self]
    exact linked
  · rw [update_of_ne same]
    apply (all k).frame _ (heads k same) brk
    intro _ member
    apply nodes
    intro place
    exact mine _ place k same (List.mem_map_of_mem member)

theorem AllLinked.setVal (all : AllLinked s cells) (here : cells l = xs ++ (a,v) :: ys) (w : α) :
    ∃ t, s.setVal a w = some t ∧ AllLinked t (update cells l (xs ++ (a,w) :: ys)) ∧ s.KeepsLoose t ∧ t.brk = s.brk := by
  have linked := all l
  rw [here] at linked
  obtain ⟨t,ran,after⟩ := linked.setVal w
  obtain ⟨n,node,_,list,_,_⟩ := linked.links
  refine ⟨t,ran,?_,?_,?_⟩
  all_goals
    simp only [Store.setVal,node,map_some,Option.some.injEq] at ran
    subst ran
  · apply all.change after [a]
    · intro b place
      cases List.mem_singleton.mp place
      exact all.apart a (by simp [here])
    · intro b outside
      exact update_of_ne (fun same => outside (List.mem_singleton.mpr same)) _ _
    · exact fun _ _ => rfl
    · exact Nat.le_refl _
  · refine ⟨Nat.le_refl _,?_⟩
    intro b m _ other loose
    rw [← other]
    apply update_of_ne
    intro same
    subst same
    rw [node] at other
    cases other
    rw [loose] at list
    cases list
  · rfl

theorem append_writes (segment : ∃ final, Segment s.nodes l none (s.heads l).next list final none)
    (ran : s.append l a = some t) :
    (∀ b, b ∉ a :: list.map Prod.fst → t.nodes b = s.nodes b) ∧ (∀ k, k ≠ l → t.heads k = s.heads k) ∧ t.brk = s.brk := by
  obtain ⟨_,segment⟩ := segment
  unfold Store.append at ran
  split at ran
  · cases ran
    refine ⟨fun _ _ => rfl,?_,rfl⟩
    intro k other
    simp only [Store.setLen,Store.setHead,update_of_ne other]
  rename_i first start
  split at ran
  · cases ran
  rename_i m found
  rw [start] at segment
  have inside := last_member segment found
  obtain ⟨_,both,rfl⟩ := map_eq_some_iff.mp ran
  obtain ⟨_,left,right⟩ := Option.bind_eq_some_iff.mp both
  obtain ⟨n,_,rfl⟩ := map_eq_some_iff.mp left
  obtain ⟨k,_,rfl⟩ := map_eq_some_iff.mp right
  refine ⟨?_,?_,rfl⟩
  · intro b outside
    have here : b ≠ a := fun same => outside (same ▸ List.mem_cons_self)
    have last : b ≠ m := fun same => outside (List.mem_cons_of_mem a (same ▸ inside))
    simp only [Store.setLen,update_of_ne here,update_of_ne last]
  · intro k other
    simp only [Store.setLen,update_of_ne other]

theorem AllLinked.insert (all : AllLinked s cells) (v : α) :
    ∃ t, (s.alloc v (some l)).2.append l s.brk = some t ∧ AllLinked t (update cells l (cells l ++ [(s.brk,v)])) ∧
      s.KeepsLoose t ∧ t.brk = s.brk + 1 := by
  obtain ⟨t,ran,after⟩ := (all l).insert v
  obtain ⟨nodes,heads,brk⟩ := append_writes ((all.alloc v (some l)) l).segment ran
  have kept : ∀ b, b ∉ s.brk :: (cells l).map Prod.fst → t.nodes b = s.nodes b := by
    intro b outside
    rw [nodes b outside]
    apply update_of_ne
    intro same
    subst same
    exact outside List.mem_cons_self
  refine ⟨t,ran,?_,⟨brk ▸ Nat.le_succ _,?_⟩,brk⟩
  · apply all.change after (s.brk :: (cells l).map Prod.fst) _ kept heads
    · rw [brk]
      exact Nat.le_succ _
    · intro a place k other
      rcases List.mem_cons.mp place with new | old
      · rw [new]
        exact all.fresh k
      · exact all.apart a old k other
  · intro b n _ node loose
    rw [kept b,node]
    intro place
    rcases List.mem_cons.mp place with _ | member
    · omega
    · exact all.loose node loose l member

theorem unlink_writes (linked : Linked s l (xs ++ (a,v) :: ys)) (ran : s.unlink a = some t) :
    (∀ b, b ∉ (xs ++ (a,v) :: ys).map Prod.fst → t.nodes b = s.nodes b) ∧ (∀ k, k ≠ l → t.heads k = s.heads k) ∧
      t.brk = s.brk := by
  obtain ⟨n,node,_,list,next,prev⟩ := linked.links
  have after : ∀ q, n.next = some q → q ∈ (xs ++ (a,v) :: ys).map Prod.fst := by
    intro q here
    rw [next] at here
    obtain ⟨_,first,rfl⟩ := map_eq_some_iff.mp here
    apply List.mem_map_of_mem
    exact List.mem_append_right xs (List.mem_cons_of_mem _ (List.mem_of_mem_head? first))
  have write : ∀ {c} {m : Node ι α} {nodes : Nat → Option (Node ι α)}, c ∈ (xs ++ (a,v) :: ys).map Prod.fst →
      ∀ b, b ∉ (xs ++ (a,v) :: ys).map Prod.fst → update nodes c (some m) b = nodes b := by
    intro c m _ inside b outside
    apply update_of_ne
    intro same
    subst same
    exact outside inside
  simp only [Store.unlink,node,list] at ran
  cases behind : n.prev with
  | none =>
    cases ahead : n.next with
    | none =>
      simp only [behind,ahead,map_some,Option.some.injEq] at ran
      subst ran
      exact ⟨fun _ _ => rfl,fun k other => update_of_ne other _ _,rfl⟩
    | some q =>
      simp only [behind,ahead,bind_some] at ran
      obtain ⟨m,_,rfl⟩ := map_eq_some_iff.mp ran
      exact ⟨write (after q ahead),fun k other => update_of_ne other _ _,rfl⟩
  | some p =>
    cases ahead : n.next with
    | none =>
      simp only [behind,ahead] at ran
      obtain ⟨m,_,rfl⟩ := map_eq_some_iff.mp ran
      exact ⟨write (prev p behind),fun _ _ => rfl,rfl⟩
    | some q =>
      simp only [behind,ahead] at ran
      obtain ⟨u,left,right⟩ := Option.bind_eq_some_iff.mp ran
      obtain ⟨m,_,rfl⟩ := map_eq_some_iff.mp left
      obtain ⟨k,_,rfl⟩ := map_eq_some_iff.mp right
      refine ⟨?_,fun _ _ => rfl,rfl⟩
      intro b outside
      exact (write (after q ahead) b outside).trans (write (prev p behind) b outside)

theorem AllLinked.unlink (all : AllLinked s cells) (here : cells l = xs ++ (a,v) :: ys) :
    ∃ t, s.unlink a = some t ∧ AllLinked (t.setLen l (· - 1)) (update cells l (xs ++ ys)) ∧
      s.KeepsLoose (t.setLen l (· - 1)) ∧ t.brk = s.brk ∧ ∀ k, a ∉ (update cells l (xs ++ ys) k).map Prod.fst := by
  have linked := all l
  rw [here] at linked
  obtain ⟨t,ran,after⟩ := linked.remove
  obtain ⟨nodes,heads,brk⟩ := unlink_writes linked ran
  have gone : a ∉ (xs ++ ys).map Prod.fst := by
    have distinct := linked.distinct
    rw [List.map_append,List.map_cons,List.nodup_middle] at distinct
    rw [List.map_append]
    exact (List.nodup_cons.mp distinct).1
  have joined : Linked (t.setLen l (· - 1)) l (xs ++ ys) := by
    apply after.frame
    · intro _ member
      symm
      apply update_of_ne
      intro same
      exact gone (same ▸ List.mem_map_of_mem member)
    · rfl
    · exact Nat.le_refl _
  refine ⟨t,ran,?_,⟨Nat.le_of_eq brk.symm,?_⟩,brk,?_⟩
  · apply all.change joined ((xs ++ (a,v) :: ys).map Prod.fst)
    · intro b _
      exact all.apart b (by rwa [here])
    · exact nodes
    · intro k other
      exact (update_of_ne other _ _).trans (heads k other)
    · exact Nat.le_of_eq brk.symm
  · intro b n _ node loose
    have outside := all.loose node loose l
    rw [here] at outside
    exact (nodes b outside).trans node
  · intro k
    by_cases same : k = l
    · subst same
      rwa [update_self]
    · rw [update_of_ne same]
      exact all.apart a (by simp [here]) k same

end lists

end LinkedList

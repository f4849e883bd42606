import Mathlib.Data.List.Nodup
import Mathlib.Data.List.Perm.Subperm
import Mathlib.Data.List.Range

namespace LinkedList

open Function (update update_of_ne update_self)
open List (map_append nodup_cons nodup_append mem_map length_append map_cons)
open Option (map_some bind_some)

-- Each record also points to the head of the list it is in.
structure Node (ι α : Type) where
  val : α
  next : Option Nat
  prev : Option Nat
  list : Option ι

structure Head where
  next : Option Nat
  qlen : Nat

structure Store (ι α : Type) where
  nodes : Nat → Option (Node ι α)
  heads : ι → Head
  brk : Nat

namespace Store

def alloc (v : α) (list : Option ι) (s : Store ι α) : Nat × Store ι α :=
  (s.brk,{s with nodes := update s.nodes s.brk (some ⟨v,none,none,list⟩),brk := s.brk + 1})

def release (a : Nat) (s : Store ι α) : Store ι α := {s with nodes := update s.nodes a none}

def setVal (a : Nat) (v : α) (s : Store ι α) : Option (Store ι α) :=
  (s.nodes a).map fun n => {s with nodes := update s.nodes a (some {n with val := v})}

def setNext (a : Nat) (next : Option Nat) (s : Store ι α) : Option (Store ι α) :=
  (s.nodes a).map fun n => {s with nodes := update s.nodes a (some {n with next := next})}

def setPrev (a : Nat) (prev : Option Nat) (s : Store ι α) : Option (Store ι α) :=
  (s.nodes a).map fun n => {s with nodes := update s.nodes a (some {n with prev := prev})}

def find (s : Store ι α) (p : α → Bool) : Nat → Option Nat → Option (Option Nat)
  | _,none => some none
  | 0,some _ => none
  | fuel + 1,some a =>
    match s.nodes a with
    | none => none
    | some n => if p n.val then some (some a) else s.find p fuel n.next

-- while(p->next != NULL) p = p->next;
def last (s : Store ι α) : Nat → Nat → Option Nat
  | 0,_ => none
  | fuel + 1,a =>
    match s.nodes a with
    | none => none
    | some n =>
      match n.next with
      | none => some a
      | some b => s.last fuel b

def walk (s : Store ι α) : Nat → Option Nat → List α
  | 0,_ => []
  | _,none => []
  | fuel + 1,some a =>
    match s.nodes a with
    | none => []
    | some n => n.val :: s.walk fuel n.next

def vals (s : Store ι α) (l : ι) : List α := s.walk s.brk (s.heads l).next

variable [DecidableEq ι]

def setHead (l : ι) (next : Option Nat) (s : Store ι α) : Store ι α :=
  {s with heads := update s.heads l {s.heads l with next := next}}

def setLen (l : ι) (change : Nat → Nat) (s : Store ι α) : Store ι α :=
  {s with heads := update s.heads l {s.heads l with qlen := change (s.heads l).qlen}}

def unlink (a : Nat) (s : Store ι α) : Option (Store ι α) :=
  match s.nodes a with
  | none => none
  | some n =>
    match n.prev,n.next with
    | none,none => n.list.map fun l => s.setHead l none
    | none,some q => n.list.bind fun l => (s.setHead l (some q)).setPrev q none
    | some m,none => s.setNext m none
    | some m,some q => (s.setNext m (some q)).bind (setPrev q (some m))

def append (l : ι) (a : Nat) (s : Store ι α) : Option (Store ι α) :=
  match (s.heads l).next with
  | none => some ((s.setHead l (some a)).setLen l (· + 1))
  | some b =>
    match s.last s.brk b with
    | none => none
    | some m => ((s.setNext m (some a)).bind (setPrev a (some m))).map (setLen l (· + 1))

end Store

-- The first has prev behind it, the last is at final and has tail before it.
def Segment (nodes : Nat → Option (Node ι α)) (l : ι) (prev ptr : Option Nat) :
    List (Nat × α) → Option Nat → Option Nat → Prop
  | [],final,tail => ptr = tail ∧ final = prev
  | (a,v) :: rest,final,tail =>
    ptr = some a ∧ ∃ next, nodes a = some ⟨v,next,prev,some l⟩ ∧ Segment nodes l (some a) next rest final tail

structure Linked (s : Store ι α) (l : ι) (cells : List (Nat × α)) : Prop where
  segment : ∃ final, Segment s.nodes l none (s.heads l).next cells final none
  distinct : (cells.map Prod.fst).Nodup
  count : (s.heads l).qlen = cells.length
  allocated : ∀ cell ∈ cells, cell.1 < s.brk

section segments
variable {other : Nat → Option (Node ι α)}

theorem segment_append : Segment nodes l prev ptr (xs ++ ys) final tail ↔
      ∃ m q, Segment nodes l prev ptr xs m q ∧ Segment nodes l m q ys final tail := by
  induction xs generalizing prev ptr with
  | nil =>
    constructor
    · intro segment
      exact ⟨prev,ptr,⟨rfl,rfl⟩,segment⟩
    · rintro ⟨m,q,⟨rfl,rfl⟩,segment⟩
      exact segment
  | cons cell rest ih =>
    constructor
    · rintro ⟨here,next,node,segment⟩
      obtain ⟨m,q,left,right⟩ := ih.mp segment
      exact ⟨m,q,⟨here,next,node,left⟩,right⟩
    · rintro ⟨m,q,⟨here,next,node,left⟩,right⟩
      exact ⟨here,next,node,ih.mpr ⟨m,q,left,right⟩⟩

theorem segment_frame (same : ∀ cell ∈ xs, other cell.1 = nodes cell.1)
    (segment : Segment nodes l prev ptr xs final tail) : Segment other l prev ptr xs final tail := by
  induction xs generalizing prev ptr with
  | nil => exact segment
  | cons cell rest ih =>
    obtain ⟨here,next,node,segment⟩ := segment
    refine ⟨here,next,?_,ih (fun cell member => same cell (List.mem_cons_of_mem _ member)) segment⟩
    rw [same cell (by simp)]
    exact node

theorem segment_update (outside : a ∉ xs.map Prod.fst)
    (segment : Segment nodes l prev ptr xs final tail) (n : Option (Node ι α)) :
    Segment (update nodes a n) l prev ptr xs final tail := by
  apply segment_frame _ segment
  intro _ member
  apply update_of_ne
  intro same
  exact outside (same ▸ List.mem_map_of_mem member)

theorem segment_setNext (distinct : ((xs ++ [(b,v)]).map Prod.fst).Nodup)
    (segment : Segment nodes l prev ptr (xs ++ [(b,v)]) final tail) (q : Option Nat) :
    final = some b ∧ ∃ n, nodes b = some n ∧
      Segment (update nodes b (some {n with next := q})) l prev ptr (xs ++ [(b,v)]) final q := by
  obtain ⟨m,_,left,rfl,_,node,rfl,rfl⟩ := segment_append.mp segment
  refine ⟨rfl,_,node,segment_append.mpr ⟨m,some b,?_,rfl,q,?_,rfl,rfl⟩⟩
  · apply segment_update _ left
    rw [map_append,nodup_append] at distinct
    intro member
    exact distinct.2.2 b member b (by simp) rfl
  · rw [update_self]

theorem segment_setPrev (distinct : (((a,v) :: rest).map Prod.fst).Nodup)
    (segment : Segment nodes l prev ptr ((a,v) :: rest) final tail) (p : Option Nat) :
    ptr = some a ∧ ∃ n, nodes a = some n ∧
      Segment (update nodes a (some {n with prev := p})) l p ptr ((a,v) :: rest) final tail := by
  obtain ⟨rfl,next,node,segment⟩ := segment
  refine ⟨rfl,_,node,rfl,next,by rw [update_self],?_⟩
  apply segment_update _ segment
  exact (nodup_cons.mp distinct).1

theorem segment_node (segment : Segment nodes l prev ptr (xs ++ (a,v) :: ys) final tail) :
    ∃ n, nodes a = some n ∧ n.val = v ∧ Segment nodes l (some a) n.next ys final tail := by
  obtain ⟨m,q,_,rfl,_,node,right⟩ := segment_append.mp segment
  exact ⟨_,node,rfl,right⟩

theorem segment_setVal (distinct : ((xs ++ (a,v) :: ys).map Prod.fst).Nodup)
    (segment : Segment nodes l prev ptr (xs ++ (a,v) :: ys) final tail) (w : α) :
    ∃ n, nodes a = some n ∧ Segment (update nodes a (some {n with val := w})) l prev ptr (xs ++ (a,w) :: ys) final tail := by
  obtain ⟨m,q,left,rfl,next,node,right⟩ := segment_append.mp segment
  rw [map_append,nodup_append] at distinct
  refine ⟨_,node,segment_append.mpr ⟨m,some a,?_,rfl,next,by rw [update_self],?_⟩⟩
  · apply segment_update _ left
    intro member
    exact distinct.2.2 a member a (by simp) rfl
  · apply segment_update _ right
    exact (nodup_cons.mp distinct.2.1).1

end segments

namespace Linked
variable {s : Store ι α}

theorem length_le (linked : Linked s l cells) : cells.length ≤ s.brk := by
  have inside : cells.map Prod.fst ⊆ List.range s.brk := by
    intro a member
    obtain ⟨cell,here,rfl⟩ := mem_map.mp member
    exact List.mem_range.mpr (linked.allocated cell here)
  have bound := (List.subperm_of_subset linked.distinct inside).length_le
  simpa using bound

theorem empty (none_yet : (s.heads l).next = none) (count : (s.heads l).qlen = 0) : Linked s l [] :=
  ⟨⟨none,none_yet,rfl⟩,List.nodup_nil,count,fun _ member => (List.not_mem_nil member).elim⟩

theorem node (linked : Linked s l (xs ++ (a,v) :: ys)) :
    ∃ n, s.nodes a = some n ∧ n.val = v ∧ n.next = ys.head?.map Prod.fst := by
  obtain ⟨_,segment⟩ := linked.segment
  obtain ⟨n,here,val,right⟩ := segment_node segment
  refine ⟨n,here,val,?_⟩
  cases ys with
  | nil | cons => exact right.1

section

theorem find_segment (p : α → Bool) (fuel : Nat) (enough : cells.length ≤ fuel)
    (segment : Segment s.nodes l prev ptr cells final none) :
    s.find p fuel ptr = some ((cells.find? fun cell => p cell.2).map Prod.fst) := by
  induction cells generalizing prev ptr fuel with
  | nil =>
    obtain ⟨rfl,_⟩ := segment
    cases fuel <;> rfl
  | cons cell rest ih =>
    obtain ⟨rfl,_,node,segment⟩ := segment
    cases fuel with
    | zero => simp at enough
    | succ fuel =>
      simp only [Store.find,node]
      cases holds : p cell.2 with
      | true => simp [holds]
      | false =>
        rw [if_neg (by decide),List.find?_cons_of_neg (by simp [holds])]
        exact ih fuel (by simpa using enough) segment

theorem find (linked : Linked s l cells) (p : α → Bool) :
    s.find p s.brk (s.heads l).next = some ((cells.find? fun cell => p cell.2).map Prod.fst) := by
  obtain ⟨_,segment⟩ := linked.segment
  exact find_segment p s.brk linked.length_le segment

theorem walk_segment (fuel : Nat) (enough : cells.length ≤ fuel)
    (segment : Segment s.nodes l prev ptr cells final none) : s.walk fuel ptr = cells.map Prod.snd := by
  induction cells generalizing prev ptr fuel with
  | nil =>
    obtain ⟨rfl,_⟩ := segment
    cases fuel <;> rfl
  | cons cell rest ih =>
    obtain ⟨rfl,_,node,segment⟩ := segment
    cases fuel with
    | zero => simp at enough
    | succ fuel =>
      simp only [Store.walk,node,map_cons]
      rw [ih fuel (by simpa using enough) segment]

theorem vals (linked : Linked s l cells) : s.vals l = cells.map Prod.snd := by
  obtain ⟨_,segment⟩ := linked.segment
  exact walk_segment s.brk linked.length_le segment

end

theorem setVal (linked : Linked s l (xs ++ (a,v) :: ys)) (w : α) :
    ∃ t, s.setVal a w = some t ∧ Linked t l (xs ++ (a,w) :: ys) := by
  obtain ⟨final,segment⟩ := linked.segment
  obtain ⟨n,node,after⟩ := segment_setVal linked.distinct segment w
  have places : (xs ++ (a,w) :: ys).map Prod.fst = (xs ++ (a,v) :: ys).map Prod.fst := by simp
  refine ⟨{s with nodes := update s.nodes a (some {n with val := w})},by rw [Store.setVal,node]; rfl,
    ⟨final,after⟩,places ▸ linked.distinct,?_,?_⟩
  · have count := linked.count
    simp only [length_append,List.length_cons] at count ⊢
    exact count
  · intro _ member
    have place := List.mem_map_of_mem (f := Prod.fst) member
    rw [places] at place
    obtain ⟨old,here,same⟩ := mem_map.mp place
    rw [← same]
    exact linked.allocated old here

theorem last_segment (fuel : Nat) (enough : xs.length < fuel)
    (segment : Segment s.nodes l prev (some a) (xs ++ [(b,v)]) final none) : s.last fuel a = some b := by
  induction xs generalizing prev a fuel with
  | nil =>
    obtain ⟨same,next,node,rfl,_⟩ := segment
    cases same
    cases fuel with
    | zero => omega
    | succ => simp only [Store.last,node]
  | cons cell rest ih =>
    obtain ⟨same,next,node,segment⟩ := segment
    cases same
    cases fuel with
    | zero => omega
    | succ fuel =>
      simp only [Store.last,node]
      cases next with
      | none => cases rest <;> cases segment.1
      | some => exact ih fuel (by simpa using enough) segment

variable [DecidableEq ι]

theorem insert (linked : Linked s l cells) (v : α) :
    ∃ t, (s.alloc v (some l)).2.append l s.brk = some t ∧ Linked t l (cells ++ [(s.brk,v)]) := by
  obtain ⟨_,segment⟩ := linked.segment
  have fresh : s.brk ∉ cells.map Prod.fst := by
    intro member
    obtain ⟨cell,here,same⟩ := mem_map.mp member
    have bound := linked.allocated cell here
    omega
  have kept := segment_update fresh segment (some ⟨v,none,none,some l⟩)
  have distinct : ((cells ++ [(s.brk,v)]).map Prod.fst).Nodup := by
    rw [map_append,nodup_append]
    refine ⟨linked.distinct,by simp,?_⟩
    intro a member b single same
    rw [List.map_singleton,List.mem_singleton] at single
    exact fresh (by rwa [same,single] at member)
  have allocated : ∀ cell ∈ cells ++ [(s.brk,v)], cell.1 < s.brk + 1 := by
    intro cell member
    cases List.mem_append.mp member with
    | inl old => exact Nat.lt_succ_of_lt (linked.allocated cell old)
    | inr new => rw [List.mem_singleton.mp new]; exact Nat.lt_succ_self _
  rcases List.eq_nil_or_concat cells with rfl | ⟨rest,⟨b,w⟩,rfl⟩
  · have none_yet : (s.heads l).next = none := segment.1
    refine ⟨((s.alloc v (some l)).2.setHead l (some s.brk)).setLen l (· + 1),
      by simp only [Store.append,Store.alloc,none_yet],⟨some s.brk,?_⟩,distinct,?_,allocated⟩
    · simp [Segment,Store.setLen,Store.setHead,Store.alloc]
    · simp [Store.setLen,Store.setHead,Store.alloc,linked.count]
  rw [List.concat_eq_append] at *
  obtain ⟨rfl,n,node,after⟩ := segment_setNext linked.distinct kept (some s.brk)
  have apart : s.brk ≠ b := by
    rintro rfl
    simp at fresh
  obtain ⟨first,start⟩ : ∃ first, (s.heads l).next = some first := by
    cases rest with
    | nil | cons => exact ⟨_,segment.1⟩
  have walked : (s.alloc v (some l)).2.last (s.brk + 1) first = some b := by
    have bound := linked.length_le
    rw [length_append,List.length_singleton] at bound
    rw [start] at kept
    exact last_segment (s := (s.alloc v (some l)).2) (s.brk + 1) (by omega) kept
  have place : (update (update s.nodes s.brk (some ⟨v,none,none,some l⟩)) b
      (some {n with next := some s.brk})) s.brk = some ⟨v,none,none,some l⟩ := by
    rw [update_of_ne apart,update_self]
  refine ⟨({s with
      nodes := update (update (update s.nodes s.brk (some ⟨v,none,none,some l⟩)) b
        (some {n with next := some s.brk})) s.brk (some ⟨v,none,some b,some l⟩)
      brk := s.brk + 1} : Store ι α).setLen l (· + 1),?_,⟨some s.brk,?_⟩,distinct,?_,allocated⟩
  · have start' : ((s.alloc v (some l)).2.heads l).next = some first := start
    have node' : (s.alloc v (some l)).2.nodes b = some n := node
    have walked' : (s.alloc v (some l)).2.last (s.alloc v (some l)).2.brk first = some b := walked
    simp only [Store.append,start',walked',Store.setNext,node',map_some,bind_some,Store.setPrev]
    simp only [Store.alloc,place,map_some]
  · have tail := segment_update fresh after (some ⟨v,none,some b,some l⟩)
    simp only [Store.setLen,update_self]
    exact segment_append.mpr ⟨some b,some s.brk,tail,rfl,none,by rw [update_self],rfl,rfl⟩
  · simp [Store.setLen,linked.count]

theorem rest (linked : Linked s l (xs ++ (a,v) :: ys)) {t : Store ι α}
    (joined : ∃ final, Segment t.nodes l none (t.heads l).next (xs ++ ys) final none)
    (count : (t.heads l).qlen = (s.heads l).qlen) (brk : t.brk = s.brk) :
    Linked ((t.setLen l (· - 1)).release a) l (xs ++ ys) := by
  have shorter : List.Sublist (xs ++ ys) (xs ++ (a,v) :: ys) := (List.sublist_cons_self _ _).append_left xs
  have total := linked.count
  rw [length_append,List.length_cons] at total
  obtain ⟨final,joined⟩ := joined
  refine ⟨⟨final,?_⟩,linked.distinct.sublist (shorter.map _),?_,?_⟩
  · have outside : a ∉ (xs ++ ys).map Prod.fst := by
      have distinct := linked.distinct
      rw [map_append,map_cons,List.nodup_middle] at distinct
      rw [map_append]
      exact (nodup_cons.mp distinct).1
    simp only [Store.release,Store.setLen,update_self]
    exact segment_update outside joined none
  · simp only [Store.release,Store.setLen,update_self,count,total,length_append]
    omega
  · intro cell member
    exact brk ▸ linked.allocated cell (shorter.subset member)

theorem remove (linked : Linked s l (xs ++ (a,v) :: ys)) :
    ∃ t, s.unlink a = some t ∧ Linked ((t.setLen l (· - 1)).release a) l (xs ++ ys) := by
  obtain ⟨final,segment⟩ := linked.segment
  obtain ⟨m,q,left,rfl,next,node,right⟩ := segment_append.mp segment
  have distinct := linked.distinct
  rw [map_append,nodup_append] at distinct
  obtain ⟨left_distinct,right_distinct,apart⟩ := distinct
  have right_distinct := (nodup_cons.mp right_distinct).2
  rcases List.eq_nil_or_concat xs with rfl | ⟨before,⟨b,w⟩,rfl⟩
  · obtain ⟨_,rfl⟩ := left
    cases ys with
    | nil =>
      obtain ⟨rfl,rfl⟩ := right
      refine ⟨s.setHead l none,by simp [Store.unlink,node],linked.rest ⟨none,?_⟩ ?_ rfl⟩
      · exact ⟨by simp [Store.setHead],rfl⟩
      · simp [Store.setHead]
    | cons cell =>
      obtain ⟨c,u⟩ := cell
      obtain ⟨rfl,n,here,joined⟩ := segment_setPrev right_distinct right none
      refine ⟨{s.setHead l (some c) with nodes := update s.nodes c (some {n with prev := none})},?_,
        linked.rest ⟨final,?_⟩ ?_ rfl⟩
      · simp only [Store.unlink,node,bind_some,Store.setPrev,Store.setHead,here,map_some]
      · simpa [Store.setHead] using joined
      · simp [Store.setHead]
  rw [List.concat_eq_append] at *
  cases ys with
  | nil =>
    obtain ⟨rfl,rfl⟩ := right
    obtain ⟨rfl,n,here,joined⟩ := segment_setNext left_distinct left none
    refine ⟨{s with nodes := update s.nodes b (some {n with next := none})},?_,linked.rest ⟨some b,?_⟩ rfl rfl⟩
    · simp only [Store.unlink,node,Store.setNext,here,map_some]
    · rwa [List.append_nil]
  | cons cell after =>
    obtain ⟨c,u⟩ := cell
    have first : b ∉ ((c,u) :: after).map Prod.fst := by
      intro member
      exact apart b (by simp) b (List.mem_cons_of_mem _ member) rfl
    have second : c ∉ (before ++ [(b,w)]).map Prod.fst := by
      intro member
      exact apart c member c (by simp) rfl
    obtain ⟨rfl,n,here,joined⟩ := segment_setNext left_distinct left next
    obtain ⟨rfl,k,there,joined_right⟩ := segment_setPrev right_distinct
      (segment_update first right (some {n with next := next})) (some b)
    refine ⟨{s with
      nodes := update (update s.nodes b (some {n with next := some c})) c
        (some {k with prev := some b})},?_,linked.rest ⟨final,?_⟩ rfl rfl⟩
    · simp only [Store.unlink,node,Store.setNext,here,map_some,bind_some,Store.setPrev,there]
    · exact segment_append.mpr ⟨_,_,segment_update second joined _,joined_right⟩

end Linked

end LinkedList

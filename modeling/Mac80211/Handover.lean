import Mathlib.Logic.Relation
import Mathlib.Data.List.Nodup

namespace Handover
open Function (update update_apply update_of_ne update_self)

-- A resource can be handed over to one that comes in its place. link is the other of the pair.
inductive Stage where
  | plain | leaving | coming
deriving DecidableEq

structure Role (κ : Type) where
  stage : Stage
  link : Option κ

@[ext] structure Refs (ι κ : Type) where
  held : ι → Option κ
  awaited : ι → Option κ
  on : κ → List ι
  waits : κ → List ι
  role : κ → Option (Role κ)

variable {ι κ : Type}

-- A user points at a resource exactly when it is on the list of it, once.
structure Indexed (point : ι → Option κ) (list : κ → List ι) : Prop where
  listed : ∀ i a, i ∈ list a ↔ point i = some a
  once : ∀ a, (list a).Nodup

structure Paired (role : κ → Option (Role κ)) : Prop where
  plain : ∀ a link, role a = some ⟨.plain,link⟩ → link = none
  leaving : ∀ a link, role a = some ⟨.leaving,link⟩ → ∃ b, link = some b ∧ role b = some ⟨.coming,some a⟩
  coming : ∀ a link, role a = some ⟨.coming,link⟩ → ∃ b, link = some b ∧ role b = some ⟨.leaving,some a⟩

def Live (point : ι → Option κ) (role : κ → Option (Role κ)) : Prop := ∀ i a, point i = some a → role a ≠ none

structure Linked (r : Refs ι κ) : Prop where
  held : Indexed r.held r.on
  awaited : Indexed r.awaited r.waits
  liveHeld : Live r.held r.role
  liveAwaited : Live r.awaited r.role
  paired : Paired r.role
  closed : ∀ a link, r.role a = some ⟨.leaving,link⟩ → r.waits a = []

def Settled (r : Refs ι κ) : Prop := ∀ a link, r.role a = some ⟨.coming,link⟩ → r.on a = []

section ops
variable [DecidableEq ι] [DecidableEq κ]

def Refs.leave (r : Refs ι κ) (i : ι) : Refs ι κ := {r with held := update r.held i none,on := fun a => (r.on a).erase i}

def Refs.join (r : Refs ι κ) (i : ι) (a : κ) : Refs ι κ := {r with held := update r.held i (some a),on := update r.on a (i :: r.on a)}

def Refs.drop (r : Refs ι κ) (i : ι) : Refs ι κ := {r with awaited := update r.awaited i none,waits := fun a => (r.waits a).erase i}

def Refs.wait (r : Refs ι κ) (i : ι) (a : κ) : Refs ι κ :=
  {r with awaited := update r.awaited i (some a),waits := update r.waits a (i :: r.waits a)}

def Refs.setRole (r : Refs ι κ) (a : κ) (role : Option (Role κ)) : Refs ι κ := {r with role := update r.role a role}

def Refs.replace (r : Refs ι κ) (old new : κ) : Refs ι κ :=
  (r.setRole old (some ⟨.leaving,some new⟩)).setRole new (some ⟨.coming,some old⟩)

def Refs.part (r : Refs ι κ) (kept gone : κ) : Refs ι κ := (r.setRole kept (some ⟨.plain,none⟩)).setRole gone none

-- What may happen at a time. With calm nobody joins a resource that is coming.
inductive Move (calm : Prop) (r : Refs ι κ) : Refs ι κ → Prop where
  | leave (i : ι) : Move calm r (r.leave i)
  | join (i : ι) (a : κ) (role : Role κ) : r.held i = none → r.role a = some role → (calm → role.stage ≠ .coming) → Move calm r (r.join i a)
  | drop (i : ι) : Move calm r (r.drop i)
  | wait (i : ι) (a : κ) (role : Role κ) : r.awaited i = none → r.role a = some role → role.stage ≠ .leaving → Move calm r (r.wait i a)
  | add (a : κ) : r.role a = none → Move calm r (r.setRole a (some ⟨.plain,none⟩))
  | remove (a : κ) : r.role a = some ⟨.plain,none⟩ → r.on a = [] → r.waits a = [] → Move calm r (r.setRole a none)
  | replace (old new : κ) : r.role old = some ⟨.plain,none⟩ → r.waits old = [] → r.role new = none → Move calm r (r.replace old new)
  | part (kept gone : κ) (stage : Stage) : r.role gone = some ⟨stage,some kept⟩ → r.on gone = [] → r.waits gone = [] → Move calm r (r.part kept gone)

end ops

section fields
variable (r : Refs ι κ) (i j : ι) (a b : κ) (role : Option (Role κ))

section users
variable [DecidableEq ι]

@[simp,grind =] theorem leave_held : (r.leave i).held j = if j = i then none else r.held j := update_apply ..
@[simp,grind =] theorem leave_on : (r.leave i).on b = (r.on b).erase i := rfl
@[simp,grind =] theorem leave_awaited : (r.leave i).awaited = r.awaited := rfl
@[simp,grind =] theorem leave_role : (r.leave i).role = r.role := rfl

@[simp,grind =] theorem drop_on : (r.drop i).on = r.on := rfl
@[simp,grind =] theorem drop_awaited : (r.drop i).awaited j = if j = i then none else r.awaited j := update_apply ..
@[simp,grind =] theorem drop_waits : (r.drop i).waits b = (r.waits b).erase i := rfl
@[simp,grind =] theorem drop_role : (r.drop i).role = r.role := rfl

end users

section resources
variable [DecidableEq κ]

@[simp,grind =] theorem setRole_on : (r.setRole a role).on = r.on := rfl
@[simp,grind =] theorem setRole_waits : (r.setRole a role).waits = r.waits := rfl
@[simp,grind =] theorem setRole_role : (r.setRole a role).role b = if b = a then role else r.role b := update_apply ..

end resources

section both
variable [DecidableEq ι] [DecidableEq κ]

@[simp,grind =] theorem join_held : (r.join i a).held j = if j = i then some a else r.held j := update_apply ..
@[simp,grind =] theorem join_on : (r.join i a).on b = if b = a then i :: r.on a else r.on b := update_apply ..
@[simp,grind =] theorem join_awaited : (r.join i a).awaited = r.awaited := rfl
@[simp,grind =] theorem join_role : (r.join i a).role = r.role := rfl

@[simp,grind =] theorem wait_waits : (r.wait i a).waits b = if b = a then i :: r.waits a else r.waits b := update_apply ..
@[simp,grind =] theorem wait_role : (r.wait i a).role = r.role := rfl

end both

end fields

section indexed
variable [DecidableEq ι] {list : κ → List ι}

theorem Indexed.erase (indexed : Indexed point list) (i : ι) : Indexed (update point i none) (fun a => (list a).erase i) where
  listed := by
    intro j a
    rw [(indexed.once a).mem_erase_iff,indexed.listed]
    by_cases same : j = i
    · subst same
      rw [update_self]
      refine ⟨fun both => absurd rfl both.1,?_⟩
      intro nothing
      cases nothing
    · rw [update_of_ne same]
      exact ⟨fun both => both.2,fun points => ⟨same,points⟩⟩
  once := fun a => (indexed.once a).erase i

theorem Indexed.cons [DecidableEq κ] (indexed : Indexed point list) (free : point i = none) (a : κ) :
    Indexed (update point i (some a)) (update list a (i :: list a)) where
  listed := by
    intro j b
    by_cases same : j = i
    · subst same
      rw [update_self,Option.some.injEq]
      have nowhere : ∀ c, j ∉ list c := by
        intro c member
        rw [(indexed.listed j c).mp member] at free
        cases free
      by_cases here : b = a
      · subst here
        rw [update_self]
        exact ⟨fun _ => rfl,fun _ => List.mem_cons_self⟩
      · rw [update_of_ne here]
        exact ⟨fun member => absurd member (nowhere b),fun eq => absurd eq.symm here⟩
    · rw [update_of_ne same,← indexed.listed]
      by_cases here : b = a
      · subst here
        rw [update_self,List.mem_cons]
        exact ⟨fun member => member.resolve_left same,Or.inr⟩
      · rw [update_of_ne here]
  once := by
    intro b
    by_cases here : b = a
    · subst here
      rw [update_self,List.nodup_cons]
      refine ⟨?_,indexed.once b⟩
      intro member
      rw [(indexed.listed i b).mp member] at free
      cases free
    · rw [update_of_ne here]
      exact indexed.once b

theorem Indexed.erase_at [DecidableEq κ] (indexed : Indexed point list) (points : point i = some a) :
    (fun b => (list b).erase i) = update list a ((list a).erase i) := by
  funext b
  by_cases here : b = a
  · subst here
    rw [update_self]
  · rw [update_of_ne here,List.erase_of_not_mem]
    intro member
    rw [(indexed.listed i b).mp member] at points
    exact here (Option.some.inj points)

end indexed

section paired
variable {role : κ → Option (Role κ)}

section
variable [DecidableEq κ] (paired : Paired role)
include paired

theorem Paired.add (fresh : role a = none) : Paired (update role a (some ⟨.plain,none⟩)) := by
  constructor <;> grind [Paired,update_apply]

theorem Paired.remove (plain : role a = some ⟨.plain,none⟩) : Paired (update role a none) := by
  constructor <;> grind [Paired,update_apply]

theorem Paired.replace (plain : role old = some ⟨.plain,none⟩) (fresh : role new = none) :
    Paired (update (update role old (some ⟨.leaving,some new⟩)) new (some ⟨.coming,some old⟩)) := by
  constructor <;> grind [Paired,update_apply]

end

theorem Paired.other (paired : Paired role) (linked : role a = some ⟨stage,some b⟩) :
    stage = .leaving ∧ role b = some ⟨.coming,some a⟩ ∨ stage = .coming ∧ role b = some ⟨.leaving,some a⟩ := by
  cases stage with
  | plain =>
    have nothing := paired.plain a _ linked
    cases nothing
  | leaving =>
    obtain ⟨c,same,back⟩ := paired.leaving a _ linked
    cases same
    exact .inl ⟨rfl,back⟩
  | coming =>
    obtain ⟨c,same,back⟩ := paired.coming a _ linked
    cases same
    exact .inr ⟨rfl,back⟩

theorem Paired.unlinked (paired : Paired role) (given : role a = some own) (staying : own.stage ≠ .leaving)
    (come : own.stage ≠ .coming) : role a = some ⟨.plain,none⟩ := by
  obtain ⟨stage,link⟩ := own
  cases stage with
  | plain => rw [given,paired.plain a link given]
  | leaving => exact absurd rfl staying
  | coming => exact absurd rfl come

theorem Paired.part [DecidableEq κ] (paired : Paired role) (linked : role gone = some ⟨stage,some kept⟩) :
    Paired (update (update role kept (some ⟨.plain,none⟩)) gone none) := by
  have back := paired.other linked
  constructor <;> grind [Paired,update_apply]

end paired

section live
variable {role : κ → Option (Role κ)}

theorem Live.erase [DecidableEq ι] (live : Live point role) (i : ι) : Live (update point i none) role := by
  intro j a points
  by_cases same : j = i
  · rw [same,update_self] at points
    cases points
  · rw [update_of_ne same] at points
    exact live j a points

theorem Live.join [DecidableEq ι] (live : Live point role) (i : ι) (there : role a ≠ none) : Live (update point i (some a)) role := by
  intro j b points
  by_cases same : j = i
  · rw [same,update_self] at points
    cases points
    exact there
  · rw [update_of_ne same] at points
    exact live j b points

theorem Live.set [DecidableEq κ] (live : Live point role) (a : κ) (new : Role κ) : Live point (update role a (some new)) := by
  intro i b points
  by_cases here : b = a
  · rw [here,update_self]
    exact Option.some_ne_none _
  · rw [update_of_ne here]
    exact live i b points

theorem Live.remove [DecidableEq κ] (live : Live point role) (indexed : Indexed point list) (nobody : list a = []) :
    Live point (update role a none) := by
  intro i b points
  have elsewhere : b ≠ a := by
    intro here
    have member := (indexed.listed i b).mpr points
    rw [here,nobody] at member
    cases member
  rw [update_of_ne elsewhere]
  exact live i b points

end live

section linked

theorem Linked.absent (linked : Linked r) (absent : r.role a = none) : r.on a = [] ∧ r.waits a = [] := by
  constructor
  · apply List.eq_nil_iff_forall_not_mem.mpr
    intro i member
    exact linked.liveHeld i a ((linked.held.listed i a).mp member) absent
  · apply List.eq_nil_iff_forall_not_mem.mpr
    intro i member
    exact linked.liveAwaited i a ((linked.awaited.listed i a).mp member) absent

end linked

section moves
variable [DecidableEq ι] [DecidableEq κ] {r : Refs ι κ}

theorem Move.loose (move : Move calm r r') : Move False r r' := by
  cases move with
  | leave i => exact .leave i
  | join i a role free listed => exact .join i a role free listed False.elim
  | drop i => exact .drop i
  | wait i a role free listed staying => exact .wait i a role free listed staying
  | add a fresh => exact .add a fresh
  | remove a plain unheld unwaited => exact .remove a plain unheld unwaited
  | replace old new plain unwaited fresh => exact .replace old new plain unwaited fresh
  | part kept gone stage pair unheld unwaited => exact .part kept gone stage pair unheld unwaited

theorem Linked.move (linked : Linked r) (move : Move calm r r') : Linked r' := by
  obtain ⟨held,awaited,liveHeld,liveAwaited,paired,closed⟩ := linked
  cases move with
  | leave i => exact ⟨held.erase i,awaited,liveHeld.erase i,liveAwaited,paired,closed⟩
  | join i a role free listed =>
    have there : r.role a ≠ none := by
      rw [listed]
      exact Option.some_ne_none role
    exact ⟨held.cons free a,awaited,liveHeld.join i there,liveAwaited,paired,closed⟩
  | drop i =>
    refine ⟨held,awaited.erase i,liveHeld,liveAwaited.erase i,paired,?_⟩
    intro a link leaving
    rw [drop_waits,closed a link leaving]
    rfl
  | wait i a role free listed going =>
    have there : r.role a ≠ none := by
      rw [listed]
      exact Option.some_ne_none role
    refine ⟨held,awaited.cons free a,liveHeld,liveAwaited.join i there,paired,?_⟩
    intro b link leaving
    have elsewhere : b ≠ a := by
      intro here
      rw [here,wait_role,listed] at leaving
      cases leaving
      exact going rfl
    rw [wait_waits,if_neg elsewhere,closed b link leaving]
  | add a fresh =>
    refine ⟨held,awaited,liveHeld.set a _,liveAwaited.set a _,paired.add fresh,?_⟩
    grind
  | remove a plain unheld unwaited =>
    refine ⟨held,awaited,liveHeld.remove held unheld,liveAwaited.remove awaited unwaited,paired.remove plain,?_⟩
    grind
  | replace old new plain unwaited fresh =>
    refine ⟨held,awaited,(liveHeld.set old _).set new _,(liveAwaited.set old _).set new _,paired.replace plain fresh,?_⟩
    grind [Refs.replace]
  | part kept gone stage pair unheld unwaited =>
    refine ⟨held,awaited,(liveHeld.set kept _).remove held unheld,(liveAwaited.set kept _).remove awaited unwaited,paired.part pair,?_⟩
    grind [Refs.part]

theorem Settled.move (given : calm) (linked : Linked r) (settled : Settled r) (move : Move calm r r') : Settled r' := by
  cases move with
  | leave =>
    intro a link coming
    rw [leave_on,settled a link coming]
    rfl
  | join i a role free listed ready =>
    intro b link coming
    have elsewhere : b ≠ a := by
      intro here
      rw [here] at coming
      rw [join_role,listed] at coming
      cases coming
      exact ready given rfl
    rw [join_on,if_neg elsewhere,settled b link coming]
  | drop | wait => exact settled
  | add | remove => grind [Settled]
  | replace old new plain unwaited fresh =>
    intro b _ _
    by_cases here : b = new
    · subst here
      exact (linked.absent fresh).1
    · grind [Settled,Refs.replace]
  | part => grind [Settled,Refs.part]

theorem rejoin (r : Refs ι κ) (i : ι) (plain : r.role a = some ⟨.plain,none⟩) :
    Relation.ReflTransGen (Move calm) r ((r.leave i).join i a) := by
  refine (Relation.ReflTransGen.single (.leave i)).tail (.join i a ⟨.plain,none⟩ ?_ plain ?_)
  · rw [leave_held,if_pos rfl]
  · exact fun _ coming => Stage.noConfusion coming

theorem Linked.drop (linked : Linked r) (i : ι) : Linked (r.drop i) := linked.move (.drop i : Move True r (r.drop i))

theorem Linked.moves (linked : Linked r) (moves : Relation.ReflTransGen (Move calm) r r') : Linked r' := by
  induction moves with
  | refl => exact linked
  | tail _ move ih => exact ih.move move

theorem Settled.moves (given : calm) (linked : Linked r) (settled : Settled r) (moves : Relation.ReflTransGen (Move calm) r r') :
    Settled r' := by
  induction moves with
  | refl => exact settled
  | tail before move ih => exact ih.move given (linked.moves before) move

end moves

end Handover

import Mac80211.ChannelSwitch
import Mathlib.Algebra.Order.BigOperators.Group.List
import Mathlib.Algebra.Order.Group.Nat
import Mathlib.Algebra.Ring.Nat

namespace Mac80211.BeaconDup
open ChannelSwitch

abbrev Memory := Nat → Nat

def memcpy (dst src n : Nat) (mem : Memory) : Memory := fun a => if dst ≤ a ∧ a < dst + n then mem (src + (a - dst)) else mem a

-- A pointer, none for NULL, and its length.
structure Part where
  data : Option Nat
  len : Nat

structure Params where
  head : Part
  tail : Part
  beaconIes : Part
  proberespIes : Part
  assocrespIes : Part
  probeResp : Part

def Params.parts (b : Params) : List Part := [b.head,b.tail,b.beaconIes,b.proberespIes,b.assocrespIes,b.probeResp]

def total (parts : List Part) : Nat := (parts.map Part.len).sum

-- The sum of the lengths is an int.
def asked (size : Nat) (b : Params) : Nat := ((size + (BitVec.ofNat 32 (total b.parts)).toInt) % 2 ^ 64).toNat

def dupPart (s : Memory × Nat) (part : Part) : (Memory × Nat) × Part :=
  if part.len = 0 then (s,⟨none,0⟩)
  else ((memcpy s.2 (part.data.getD 0) part.len s.1,s.2 + part.len),⟨some s.2,part.len⟩)

-- block is what kzalloc returns.
def cfg80211BeaconDup (size : Nat) (block : Option Nat) (mem : Memory) (beacon : Params) : Memory × Params × Option Params :=
  match block with
  | none => (mem,beacon,none)
  | some new =>
    let (s,head) := dupPart (mem,new + size) beacon.head
    let (s,tail) := dupPart s beacon.tail
    let (s,beaconIes) := dupPart s beacon.beaconIes
    let (s,proberespIes) := dupPart s beacon.proberespIes
    let ((mem,pos),assocrespIes) := dupPart s beacon.assocrespIes
    let copy : Params := ⟨head,tail,beaconIes,proberespIes,assocrespIes,⟨none,beacon.probeResp.len⟩⟩
    if beacon.probeResp.len = 0 then (mem,beacon,some copy)
    -- The pointer is put into the argument, from where the bytes are then copied.
    else (memcpy pos pos beacon.probeResp.len mem,{beacon with probeResp := ⟨some pos,beacon.probeResp.len⟩},some copy)

def setAfterCsaBeaconAp (answers : Answers) (heap : Chan.Heap) (u : Ap) : Option (Chan.Heap × Ap × Except Chan.Errno (List Changed)) :=
  u.nextBeacon.map fun next =>
    let out := assignBeacon answers heap u next.data ⟨0,[],[]⟩
    (out.1.free next.addr,{out.2.1 with nextBeacon := none},out.2.2)

def Part.bytes (mem : Memory) (part : Part) : Option (List Nat) := part.data.map fun p => (List.range part.len).map fun i => mem (p + i)

def Params.seen (mem : Memory) (b : Params) : BeaconData :=
  ⟨b.head.bytes mem,b.tail.bytes mem,b.beaconIes.bytes mem,b.proberespIes.bytes mem,b.assocrespIes.bytes mem,b.probeResp.bytes mem⟩

def Kept (mem after : Memory) (lo hi : Nat) (part copy : Part) : Prop :=
  copy.len = part.len ∧ (part.len ≠ 0 → ∃ p q, part.data = some p ∧ copy.data = some q ∧ lo ≤ q ∧ q + part.len ≤ hi ∧
    ∀ i < part.len, after (q + i) = mem (p + i))

def Apart (a b : Part) : Prop := ∀ p ∈ a.data, ∀ q ∈ b.data, p + a.len ≤ q ∨ q + b.len ≤ p

def Installs (data copy : BeaconData) (new : Nat) : Prop := ∀ answers heap u,
  let want := assignBeacon answers heap u data ⟨0,[],[]⟩
  ∃ out, setAfterCsaBeaconAp answers heap {u with nextBeacon := some ⟨new,copy⟩} = some out ∧
    out.2.1.beacon = want.2.1.beacon ∧ out.2.1.probeResp = want.2.1.probeResp ∧ out.2.2 = want.2.2

def Faithful (size new : Nat) (mem : Memory) (beacon : Params) : Prop :=
  ∃ after copy, cfg80211BeaconDup size (some new) mem beacon = (after,beacon,some copy) ∧
    (∀ a, a < new ∨ new + asked size beacon ≤ a → after a = mem a) ∧
    List.Forall₂ (Kept mem after new (new + asked size beacon)) beacon.parts copy.parts ∧ copy.parts.Pairwise Apart ∧
    Installs (beacon.seen mem) (copy.seen after) new

def Part.Valid (lo hi : Nat) (part : Part) : Prop := part.len ≠ 0 → ∃ p, part.data = some p ∧ (p + part.len ≤ lo ∨ hi ≤ p)

def Part.Plain (part : Part) : Prop := part.len = 0 → part.data = none

section parts


def dupParts (s : Memory × Nat) : List Part → (Memory × Nat) × List Part
  | [] => (s,[])
  | part :: parts =>
    let out := dupParts (dupPart s part).1 parts
    (out.1,(dupPart s part).2 :: out.2)

def Copied (mem after : Memory) (pos hi : Nat) (part copy : Part) : Prop :=
  Kept mem after pos hi part copy ∧ (part.len = 0 → copy.data = none)

structure Packed (mem0 : Memory) (s : Memory × Nat) (hi : Nat) (parts : List Part) (out : (Memory × Nat) × List Part) : Prop where
  copied : List.Forall₂ (Copied mem0 out.1.1 s.2 hi) parts out.2
  above : ∀ copy ∈ out.2, ∀ q ∈ copy.data, s.2 ≤ q
  apart : out.2.Pairwise Apart
  frame : ∀ a, a < s.2 ∨ hi ≤ a → out.1.1 a = s.1 a

theorem dup_packed (valid : ∀ part ∈ parts, part.Valid lo hi) (same : ∀ a, a < lo ∨ hi ≤ a → mem a = mem0 a)
    (low : lo ≤ pos) (fits : pos + total parts ≤ hi) : Packed mem0 (mem,pos) hi parts (dupParts (mem,pos) parts) := by
  induction parts generalizing mem pos with
  | nil => exact ⟨.nil,by simp [dupParts],.nil,fun _ _ => rfl⟩
  | cons part parts ih =>
    have rest := fun p member => valid p (List.mem_cons_of_mem _ member)
    rw [total,List.map_cons,List.sum_cons] at fits
    rw [dupParts,dupPart]
    by_cases empty : part.len = 0
    · rw [if_pos empty]
      obtain ⟨copied,above,apart,frame⟩ := ih rest same low (by rw [total]; omega)
      have none_ : ∀ p : Nat, p ∉ (none : Option Nat) := fun _ member => nomatch member
      refine ⟨.cons ⟨⟨empty.symm,fun some_ => absurd empty some_⟩,fun _ => rfl⟩ copied,?_,?_,frame⟩
      · exact List.forall_mem_cons.mpr ⟨fun p member => absurd member (none_ p),above⟩
      · exact List.pairwise_cons.mpr ⟨fun _ _ p member => absurd member (none_ p),apart⟩
    · rw [if_neg empty]
      obtain ⟨p,data,_⟩ := valid part List.mem_cons_self empty
      have inside : ∀ a, a < lo ∨ hi ≤ a → memcpy pos (part.data.getD 0) part.len mem a = mem0 a := by
        intro a out
        rw [memcpy,if_neg (by omega),same a out]
      have above : lo ≤ pos + part.len := by omega
      obtain ⟨copied,above,apart,frame⟩ := ih rest inside above (by rw [total]; omega)
      dsimp only at copied above apart frame ⊢
      refine ⟨.cons ⟨⟨rfl,fun _ => ⟨p,pos,data,rfl,Nat.le_refl pos,by omega,?_⟩⟩,fun zero => absurd zero empty⟩ (copied.imp ?_),?_,?_,?_⟩
      · intro i _
        rw [frame _ (Or.inl (by omega)),memcpy,if_pos (by omega),data,Option.getD_some,Nat.add_sub_cancel_left]
        exact same _ (by omega)
      · rintro a b ⟨⟨len,bytes⟩,none_⟩
        refine ⟨⟨len,fun some_ => ?_⟩,none_⟩
        obtain ⟨p,q,at_,to_,_,rest⟩ := bytes some_
        exact ⟨p,q,at_,to_,by omega,rest⟩
      · exact List.forall_mem_cons.mpr ⟨fun q member => Nat.le_of_eq (Option.mem_some.mp member),fun copy member q there => Nat.le_of_add_right_le (above copy member q there)⟩
      · refine List.pairwise_cons.mpr ⟨fun copy member q there r here => Or.inl ?_,apart⟩
        rw [← Option.mem_some.mp there]
        exact above copy member r here
      · intro a _
        rw [frame a (by omega),memcpy,if_neg (by omega)]

theorem kept_inside (kept : List.Forall₂ (Kept mem0 after lo hi) parts (dupParts (mem,pos) parts).2) :
    total parts = 0 ∨ pos + total parts ≤ hi := by
  induction parts generalizing mem pos with
  | nil => exact Or.inl rfl
  | cons part parts ih =>
    rw [dupParts,dupPart] at kept
    by_cases empty : part.len = 0
    · rw [if_pos empty] at kept
      have := ih (List.forall₂_cons.mp kept).2
      simpa only [total,List.map_cons,List.sum_cons,empty,Nat.zero_add] using this
    · rw [if_neg empty] at kept
      obtain ⟨⟨_,bytes⟩,others⟩ := List.forall₂_cons.mp kept
      obtain ⟨p,q,_,at_,_,_,_⟩ := bytes empty
      cases at_
      have := ih others
      simp only [total,List.map_cons,List.sum_cons] at this ⊢
      omega

theorem copied_bytes (copied : Copied mem after pos hi part copy) :
    copy.bytes after = ChannelSwitch.copied (part.bytes mem) := by
  obtain ⟨⟨len,bytes⟩,none_⟩ := copied
  by_cases empty : part.len = 0
  · rw [Part.bytes,none_ empty,Part.bytes,empty]
    cases part.data <;> rfl
  · obtain ⟨p,q,at_,to_,_,_,same⟩ := bytes empty
    have whole : (List.range copy.len).map (fun i => after (q + i)) = (List.range part.len).map fun i => mem (p + i) := by
      rw [len]
      exact List.map_congr_left fun i member => same i (List.mem_range.mp member)
    have some_ : ((List.range part.len).map fun i => mem (p + i)).isEmpty = false := by
      rw [List.isEmpty_map,List.isEmpty_eq_false_iff]
      exact fun nil => empty (List.range_eq_nil.mp nil)
    rw [Part.bytes,Part.bytes,at_,to_,Option.map_some,Option.map_some,whole,ChannelSwitch.copied,Option.filter_some,some_]
    rfl

end parts

section beacon

variable {beacon : Params}

def Params.front (b : Params) : List Part := [b.head,b.tail,b.beaconIes,b.proberespIes,b.assocrespIes]

theorem assign_beside (answers : Answers) (heap : Chan.Heap) (u : Ap) (next : Option NextBeacon) (data : BeaconData) (csa : Csa) :
    assignBeacon answers heap {u with nextBeacon := next} data csa =
      let out := assignBeacon answers heap u data csa
      (out.1,{out.2.1 with nextBeacon := next},out.2.2) := by
  unfold assignBeacon setProbeResp
  dsimp only
  split
  · rfl
  · split
    · rfl
    · cases copied data.probeResp with
      | none => rfl
      | some => cases answers.probeResp <;> rfl

theorem installs_iff (data copy : BeaconData) (new : Nat) : Installs data copy new ↔ ∀ answers heap u,
    let got := assignBeacon answers heap u copy ⟨0,[],[]⟩
    let want := assignBeacon answers heap u data ⟨0,[],[]⟩
    got.2.1.beacon = want.2.1.beacon ∧ got.2.1.probeResp = want.2.1.probeResp ∧ got.2.2 = want.2.2 := by
  have out (answers : Answers) (heap : Chan.Heap) (u : Ap) : setAfterCsaBeaconAp answers heap {u with nextBeacon := some ⟨new,copy⟩} =
      some ((assignBeacon answers heap u copy ⟨0,[],[]⟩).1.free new,
        {(assignBeacon answers heap u copy ⟨0,[],[]⟩).2.1 with nextBeacon := none},(assignBeacon answers heap u copy ⟨0,[],[]⟩).2.2) := by
    rw [setAfterCsaBeaconAp,Option.map_some,assign_beside]
  constructor
  · intro installs answers heap u
    obtain ⟨_,same,rest⟩ := installs answers heap u
    rw [out] at same
    cases same
    exact rest
  · intro same answers heap u
    exact ⟨_,out answers heap u,same answers heap u⟩

theorem dup_parts (size new : Nat) (mem : Memory) (beacon : Params) :
    let out := dupParts (mem,new + size) beacon.front
    ∃ copy : Params, copy.front = out.2 ∧ copy.probeResp = ⟨none,beacon.probeResp.len⟩ ∧
      (cfg80211BeaconDup size (some new) mem beacon).2.2 = some copy ∧
      (beacon.probeResp.len = 0 → cfg80211BeaconDup size (some new) mem beacon = (out.1.1,beacon,some copy)) := by
  refine ⟨⟨_,_,_,_,_,_⟩,rfl,rfl,?_,fun absent => ?_⟩
  · unfold cfg80211BeaconDup
    dsimp only
    split <;> rfl
  · unfold cfg80211BeaconDup
    dsimp only
    rw [if_pos absent]
    rfl

theorem dup_seen {copy : Params} (front : List.Forall₂ (Copied mem after lo hi) beacon.front copy.front)
    (absent : copy.probeResp = ⟨none,0⟩) : copy.seen after = (beaconDup new (beacon.seen mem)).data := by
  simp only [Params.front,List.forall₂_cons] at front
  obtain ⟨head,tail,beaconIes,proberespIes,assocrespIes,_⟩ := front
  rw [Params.seen,copied_bytes head,copied_bytes tail,copied_bytes beaconIes,copied_bytes proberespIes,copied_bytes assocrespIes,absent]
  rfl

theorem copied_plain {part : Part} (plain : part.Plain) : copied (part.bytes mem) = part.bytes mem := by
  obtain ⟨data,len⟩ := part
  cases data with
  | none => rfl
  | some p =>
    cases len with
    | zero => exact absurd (plain rfl) (Option.some_ne_none p)
    | succ => rw [Part.bytes,List.range_succ]; simp [copied]

theorem installs_copy (head : beacon.head.Plain) (tail : beacon.tail.Plain) (absent : beacon.probeResp.len = 0) :
    Installs (beacon.seen mem) (beaconDup new (beacon.seen mem)).data new := by
  rw [installs_iff]
  intro answers heap u
  have resp : copied (beacon.probeResp.bytes mem) = none := by
    rw [Part.bytes,absent]
    cases beacon.probeResp.data <;> rfl
  have same : assignBeacon answers heap u (beaconDup new (beacon.seen mem)).data ⟨0,[],[]⟩ = assignBeacon answers heap u (beacon.seen mem) ⟨0,[],[]⟩ := by
    unfold assignBeacon setProbeResp
    dsimp only [beaconDup,Params.seen]
    rw [copied_plain head,copied_plain tail,resp]
    rfl
  rw [same]
  exact ⟨rfl,rfl,rfl⟩

def granted : Answers := ⟨none,⟨true,none⟩,none,true,true,true,true,true,true,true⟩

theorem head_plain (installs : Installs data copy new) (gone : copy.head = none) : data.head = none := by
  have first := ((installs_iff data copy new).mp installs granted ⟨[],0⟩ ⟨none,none,none⟩).2.2
  cases there : data.head with
  | none => rfl
  | some =>
    unfold assignBeacon setProbeResp at first
    rw [gone,there] at first
    cases resp : copied data.probeResp <;> rw [resp] at first <;> cases first

theorem granted_tail (heap : Chan.Heap) (old : Beacon) (data : BeaconData) :
    (assignBeacon granted heap ⟨some old,none,none⟩ data ⟨0,[],[]⟩).2.1.beacon.map Beacon.tail = some (data.tail.getD old.tail) := by
  unfold assignBeacon setProbeResp
  cases data.head <;> cases data.tail <;> generalize copied data.probeResp = resp <;> cases resp <;> rfl

theorem tail_plain (installs : Installs data copy new) (gone : copy.tail = none) : data.tail ≠ some [] := by
  intro there
  have first := ((installs_iff data copy new).mp installs granted ⟨[],0⟩ ⟨some ⟨0,[],[1],0,[]⟩,none,none⟩).1
  have tails := congrArg (Option.map Beacon.tail) first
  rw [granted_tail,granted_tail,gone,there] at tails
  cases tails

theorem dupPart_empty (s : Memory × Nat) (empty : part.len = 0) : (dupPart s part).2 = ⟨none,0⟩ := by
  rw [dupPart,if_pos empty]

theorem beacon_dup_faithful_iff (size new : Nat) (mem : Memory) (beacon : Params)
    (valid : ∀ part ∈ beacon.parts, part.Valid new (new + asked size beacon)) :
    Faithful size new mem beacon ↔ beacon.probeResp.len = 0 ∧ beacon.head.Plain ∧ beacon.tail.Plain ∧
      (total beacon.parts = 0 ∨ size + total beacon.parts ≤ asked size beacon) := by
  obtain ⟨copy,front,last,made,whole⟩ := dup_parts size new mem beacon
  have sums : total beacon.parts = total beacon.front + beacon.probeResp.len := by
    simp [total,Params.parts,Params.front]
    omega
  constructor
  · rintro ⟨after,_,ran,_,kept,_,installs⟩
    rw [ran] at made
    cases made
    have resp := List.forall₂_drop_append beacon.parts copy.front [copy.probeResp] kept
    have absent : beacon.probeResp.len = 0 := by
      by_contra there
      obtain ⟨p,q,_,data,_⟩ := (List.forall₂_cons.mp resp).1.2 there
      rw [last] at data
      cases data
    have five := List.forall₂_take_append beacon.parts copy.front [copy.probeResp] kept
    rw [front] at five
    have inside : total beacon.front = 0 ∨ _ := kept_inside five
    refine ⟨absent,?_,?_,by omega⟩
    · intro empty
      simp only [Params.front,dupParts,List.cons.injEq] at front
      have gone : (copy.seen after).head = none := by rw [Params.seen,front.1,dupPart_empty _ empty]; rfl
      exact Option.map_eq_none_iff.mp (head_plain installs gone)
    · intro empty
      simp only [Params.front,dupParts,List.cons.injEq] at front
      have gone : (copy.seen after).tail = none := by rw [Params.seen,front.2.1,dupPart_empty _ empty]; rfl
      cases data : beacon.tail.data with
      | none => rfl
      | some p =>
        refine absurd ?_ (tail_plain installs gone)
        change beacon.tail.bytes mem = some []
        rw [Part.bytes,data,empty]
        rfl
  · rintro ⟨absent,head,tail,_⟩
    rw [absent,Nat.add_zero] at sums
    have within : ∀ part ∈ beacon.front, part.Valid new (new + size + total beacon.front) := by
      intro part member some_
      obtain ⟨p,data,outside⟩ := valid part (List.mem_append_left [beacon.probeResp] member) some_
      have least : part.len ≤ total beacon.front := List.le_sum_of_mem (List.mem_map_of_mem member)
      exact ⟨p,data,by omega⟩
    obtain ⟨copied,_,apart,frame⟩ := dup_packed within (fun a _ => Eq.refl (mem a)) (Nat.le_add_right new size) (Nat.le_refl _)
    rw [← front] at copied apart
    rw [absent] at last
    have resp : copy.parts = copy.front ++ [⟨none,0⟩] := by rw [← last]; rfl
    refine ⟨_,copy,whole absent,fun a outside => frame a (by omega),?_,?_,?_⟩
    · rw [resp]
      refine List.rel_append (copied.imp ?_) (.cons ⟨absent.symm,fun there => absurd absent there⟩ .nil)
      rintro _ _ ⟨⟨len,bytes⟩,_⟩
      refine ⟨len,fun some_ => ?_⟩
      obtain ⟨p,q,at_,to_,_,_,same⟩ := bytes some_
      exact ⟨p,q,at_,to_,by omega,by omega,same⟩
    · rw [resp,List.pairwise_append]
      refine ⟨apart,List.pairwise_singleton _ _,fun a _ b member p _ q there => ?_⟩
      rw [List.mem_singleton.mp member] at there
      cases there
    · rw [dup_seen copied last]
      exact installs_copy head tail absent

end beacon

def twoParts : Params := ⟨⟨some 10,3⟩,⟨some 20,2⟩,⟨none,0⟩,⟨none,0⟩,⟨none,0⟩,⟨none,0⟩⟩

theorem beacon_dup_faithful_sample : Faithful 96 1000 (fun a => a) twoParts := by
  have head : twoParts.head.Plain := fun zero => nomatch zero
  have tail : twoParts.tail.Plain := fun zero => nomatch zero
  refine (beacon_dup_faithful_iff 96 1000 (fun a => a) twoParts ?_).mpr ⟨rfl,head,tail,Or.inr (by decide)⟩
  simp [Params.parts,Part.Valid,twoParts]

-- A probe response of one byte: the pointer is put into the argument instead of the copy.
theorem probe_resp_lost : ¬Faithful 96 1000 (fun a => a) {twoParts with probeResp := ⟨some 30,1⟩} := by
  rintro ⟨_,_,ran,_⟩
  cases congrArg (fun out => out.2.1.probeResp.data) ran

end Mac80211.BeaconDup

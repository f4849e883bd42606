import Mac80211.MeshHwmpFresh

namespace Mac80211.MeshGates
open Ieee80211 MeshPathtbl

structure Frame where
  label : Nat
  addr1 : EthAddr
  addr2 : EthAddr
  addr3 : EthAddr
  addr4 : EthAddr
  meshFlags : UInt8
  eaddr1 : EthAddr
  eaddr2 : EthAddr

-- frameQueue is that of each path, and pending what ieee80211_add_pending_skbs was
-- given.
structure World where
  mesh : MeshHwmp.World
  frameQueue : Nat → List Frame
  pending : List Frame

inductive Errno where
  | hostunreach

def meshFrameQueueLen : Nat := 10
def meshFlagsAe : UInt8 := 0x3
def meshFlagsAeA5A6 : UInt8 := 0x2

def prepareForGate (skb : Frame) (dstAddr nextHop vifAddr : EthAddr) : Frame :=
  let skb := if skb.meshFlags &&& meshFlagsAe = 0 then
      {skb with meshFlags := meshFlagsAeA5A6,eaddr1 := skb.addr3,eaddr2 := skb.addr4}
    else skb
  {skb with addr1 := nextHop,addr2 := vifAddr,addr3 := dstAddr}

def World.setQueue (w : World) (p : Nat) (q : List Frame) : World := {w with frameQueue := fun r => if r = p then q else w.frameQueue r}

-- From the k-th frame on: what stays, and the queue of the gate. copied: skb_copy has memory for it.
def moveFrames (prepare : Frame → Frame) (copied : Nat → Bool) (copy : Bool) : Nat → List Frame → List Frame → List Frame × List Frame
  | _,[],queue => ([],queue)
  | k,fskb :: failq,queue =>
    if queue.length ≥ meshFrameQueueLen then (fskb :: failq,queue)
    else if !copied k then (fskb :: failq,queue)
    else
      let rest := moveFrames prepare copied copy (k + 1) failq (queue ++ [prepare fskb])
      (if copy then fskb :: rest.1 else rest.1,rest.2)

def World.nextHop (w : World) (p : Nat) : Option Nat := (w.mesh.path p).bind MeshPath.nextHop

def World.prepare (w : World) (gate sta : Nat) (skb : Frame) : Frame :=
  let zero : EthAddr := Vector.replicate 6 0
  let vif := (w.mesh.path gate).bind fun m => w.mesh.tbl.ifaces[m.sdata]?
  prepareForGate skb (((w.mesh.path gate).map MeshPath.dst).getD zero) (((w.mesh.stas[sta]?).map MeshHwmp.Sta.addr).getD zero)
    ((vif.map Iface.addr).getD zero)

def World.meshPathMoveToQueue (w : World) (copied : Nat → Bool) (gate source : Nat) (copy : Bool) : World :=
  if gate = source then w
  else
    match w.nextHop gate with
    | none => w
    | some sta =>
      let moved := moveFrames (w.prepare gate sta) copied copy 0 (w.frameQueue source) (w.frameQueue gate)
      (w.setQueue gate moved.2).setQueue source (if copy then moved.1 else [])

def World.activeGate (w : World) (s g : Nat) : Bool := (w.mesh.path g).any fun m => m.sdata == s && m.flags.active

def World.meshPathTxPending (w : World) (p : Nat) : World :=
  if (w.mesh.path p).any fun m => m.flags.active then {w.setQueue p [] with pending := w.pending ++ w.frameQueue p} else w

def forward (copied : Nat → Nat → Bool) (s : Nat) : List Nat → World → Nat → Bool → World × Nat
  | [],w,source,_ => (w,source)
  | gate :: gates,w,source,copy =>
    if w.activeGate s gate then forward copied s gates (w.meshPathMoveToQueue (copied gate) gate source copy) gate true
    else forward copied s gates w source copy

def sendPending (s : Nat) : List Nat → World → World
  | [],w => w
  | gate :: gates,w =>
    sendPending s gates (if (w.mesh.path gate).any fun m => m.sdata == s then w.meshPathTxPending gate else w)

def World.meshPathSendToGates (w : World) (copied : Nat → Nat → Bool) (p : Nat) (m : MeshPath) : World × Except Errno Unit :=
  let gates := w.mesh.tbl.meshPaths.knownGates
  let moved := forward copied m.sdata gates w p false
  (sendPending m.sdata gates moved.1,if moved.2 = p then .error .hostunreach else .ok ())

section queues

@[simp]
theorem prepareForGate_label (skb : Frame) (dstAddr nextHop vifAddr : EthAddr) :
    (prepareForGate skb dstAddr nextHop vifAddr).label = skb.label := by
  unfold prepareForGate
  split <;> rfl

@[simp]
theorem prepare_label (w : World) (gate sta : Nat) (skb : Frame) : (w.prepare gate sta skb).label = skb.label :=
  prepareForGate_label skb _ _ _

@[simp]
theorem setQueue_self (w : World) (p : Nat) (q : List Frame) : (w.setQueue p q).frameQueue p = q := if_pos rfl

theorem setQueue_other (w : World) (q : List Frame) (other : r ≠ p) : (w.setQueue p q).frameQueue r = w.frameQueue r := if_neg other

def Room (copied : Nat → Bool) (held n : Nat) : Prop := ∀ j, j < n → held + j < meshFrameQueueLen ∧ copied j = true

theorem moveFrames_spec (prepare : Frame → Frame) (copied : Nat → Bool) (copy : Bool) (failq : List Frame) : ∀ (k : Nat) (queue : List Frame),
    ∃ n, n ≤ failq.length ∧
      moveFrames prepare copied copy k failq queue = (if copy then failq else failq.drop n,queue ++ (failq.take n).map prepare) ∧
      (n = failq.length ↔ Room (fun j => copied (k + j)) queue.length failq.length) := by
  induction failq with
  | nil =>
    intro k queue
    refine ⟨0,Nat.le_refl 0,?_,?_⟩
    · simp [moveFrames]
    · exact ⟨fun _ j inside => absurd inside (Nat.not_lt_zero j),fun _ => rfl⟩
  | cons fskb failq ih =>
    intro k queue
    unfold moveFrames
    split
    · refine ⟨0,Nat.zero_le _,?_,?_⟩
      · simp
      · refine ⟨fun empty => absurd empty (by simp),fun room => ?_⟩
        have first := (room 0 (by simp)).1
        omega
    split
    · rename_i failed
      refine ⟨0,Nat.zero_le _,?_,?_⟩
      · simp
      · refine ⟨fun empty => absurd empty (by simp),fun room => ?_⟩
        have first : copied (k + 0) = true := (room 0 (by simp)).2
        rw [Nat.add_zero] at first
        simp [first] at failed
    rename_i short memory
    obtain ⟨n,bounded,moved,all⟩ := ih (k + 1) (queue ++ [prepare fskb])
    refine ⟨n + 1,Nat.succ_le_succ bounded,?_,?_⟩
    · rw [moved]
      cases copy <;> simp
    have step : Room (fun j => copied (k + 1 + j)) (queue ++ [prepare fskb]).length failq.length ↔
        Room (fun j => copied (k + j)) queue.length (fskb :: failq).length := by
      constructor
      · intro room j inside
        cases j with
        | zero => exact ⟨by omega,by simpa using memory⟩
        | succ j =>
          obtain ⟨low,there⟩ := room j (Nat.lt_of_succ_lt_succ inside)
          rw [List.length_append,List.length_singleton] at low
          refine ⟨by omega,?_⟩
          rw [← there]
          exact congrArg copied (by omega)
      · intro room j inside
        obtain ⟨_,there⟩ := room (j + 1) (Nat.succ_lt_succ inside)
        refine ⟨by rw [List.length_append,List.length_singleton]; omega,?_⟩
        rw [← there]
        exact congrArg copied (by omega)
    rw [← step,← all]
    simp

section
variable (w : World) (copied : Nat → Bool) (gate source : Nat) (copy : Bool)

theorem move_spec :
    (gate = source ∨ w.nextHop gate = none) ∧ w.meshPathMoveToQueue copied gate source copy = w ∨
    (gate ≠ source ∧ w.nextHop gate ≠ none) ∧ ∃ (prepare : Frame → Frame) (n : Nat), (∀ skb, (prepare skb).label = skb.label) ∧
      n ≤ (w.frameQueue source).length ∧
      w.meshPathMoveToQueue copied gate source copy =
        (w.setQueue gate (w.frameQueue gate ++ ((w.frameQueue source).take n).map prepare)).setQueue source
          (if copy then w.frameQueue source else []) ∧
      (n = (w.frameQueue source).length ↔ Room copied (w.frameQueue gate).length (w.frameQueue source).length) := by
  unfold World.meshPathMoveToQueue
  split
  · rename_i same
    exact .inl ⟨.inl same,rfl⟩
  rename_i other
  split
  · rename_i missing
    exact .inl ⟨.inr missing,rfl⟩
  · rename_i sta hop
    obtain ⟨n,bounded,moved,all⟩ := moveFrames_spec (w.prepare gate sta) copied copy (w.frameQueue source) 0 (w.frameQueue gate)
    refine .inr ⟨⟨other,by rw [hop]; nofun⟩,w.prepare gate sta,n,prepare_label w gate sta,bounded,?_,?_⟩
    · rw [moved]
      cases copy <;> rfl
    · simpa using all

theorem move_mesh : (w.meshPathMoveToQueue copied gate source copy).mesh = w.mesh := by
  unfold World.meshPathMoveToQueue
  split
  · rfl
  · split <;> rfl

theorem move_pending : (w.meshPathMoveToQueue copied gate source copy).pending = w.pending := by
  unfold World.meshPathMoveToQueue
  split
  · rfl
  · split <;> rfl

end

def World.Held (w : World) (label : Nat) : Prop := ∃ skb, skb.label = label ∧ (skb ∈ w.pending ∨ ∃ r, skb ∈ w.frameQueue r)

structure Grows (w w' : World) : Prop where
  queues : ∀ r skb, skb ∈ w.frameQueue r → skb ∈ w'.frameQueue r
  pending : w'.pending = w.pending

theorem Grows.refl (w : World) : Grows w w := ⟨fun _ _ member => member,rfl⟩

theorem Grows.trans (first : Grows w w') (second : Grows w' w'') : Grows w w'' :=
  ⟨fun r skb member => second.queues r skb (first.queues r skb member),second.pending.trans first.pending⟩

theorem copy_grows (w : World) (copied : Nat → Bool) (gate source : Nat) : Grows w (w.meshPathMoveToQueue copied gate source true) := by
  rcases move_spec w copied gate source true with ⟨-,same⟩ | ⟨⟨_,-⟩,_,n,-,-,moved,-⟩
  · rw [same]
    exact Grows.refl w
  refine ⟨?_,move_pending w copied gate source true⟩
  intro r _ member
  rw [moved,if_pos rfl]
  by_cases back : r = source
  · subst back
    rw [setQueue_self]
    exact member
  · rw [setQueue_other _ _ back]
    by_cases forth : r = gate
    · subst forth
      rw [setQueue_self]
      exact List.mem_append_left _ member
    · rw [setQueue_other _ _ forth]
      exact member

theorem move_within (w : World) (copied : Nat → Bool) (gate source : Nat) (copy : Bool)
    (held : (w.meshPathMoveToQueue copied gate source copy).Held label) : w.Held label := by
  obtain ⟨skb,same,place⟩ := held
  rw [move_pending] at place
  rcases place with pending | ⟨r,queued⟩
  · exact ⟨skb,same,.inl pending⟩
  rcases move_spec w copied gate source copy with ⟨-,kept⟩ | ⟨⟨_,-⟩,_,n,labels,-,moved,-⟩
  · rw [kept] at queued
    exact ⟨skb,same,.inr ⟨r,queued⟩⟩
  rw [moved] at queued
  by_cases back : r = source
  · subst back
    rw [setQueue_self] at queued
    split at queued
    · exact ⟨skb,same,.inr ⟨r,queued⟩⟩
    · cases queued
  rw [setQueue_other _ _ back] at queued
  by_cases forth : r = gate
  · subst forth
    rw [setQueue_self] at queued
    rcases List.mem_append.mp queued with old | new
    · exact ⟨skb,same,.inr ⟨r,old⟩⟩
    · obtain ⟨fskb,taken,rfl⟩ := List.mem_map.mp new
      exact ⟨fskb,(labels fskb).symm.trans same,.inr ⟨source,List.mem_of_mem_take taken⟩⟩
  · rw [setQueue_other _ _ forth] at queued
    exact ⟨skb,same,.inr ⟨r,queued⟩⟩

end queues

section walks

section
variable (copied : Nat → Nat → Bool)

theorem forward_mesh (s : Nat) (gates : List Nat) :
    ∀ (w : World) (source : Nat) (copy : Bool), (forward copied s gates w source copy).1.mesh = w.mesh := by
  induction gates with
  | nil => exact fun w source copy => rfl
  | cons gate gates ih =>
    intro w source copy
    unfold forward
    split
    · rw [ih,move_mesh]
    · exact ih w source copy

theorem forward_grows (s : Nat) (gates : List Nat) :
    ∀ (w : World) (source : Nat), Grows w (forward copied s gates w source true).1 := by
  induction gates with
  | nil => exact fun w source => Grows.refl w
  | cons gate gates ih =>
    intro w source
    unfold forward
    split
    · exact (copy_grows w (copied gate) gate source).trans (ih _ gate)
    · exact ih w source

theorem forward_within (s : Nat) (gates : List Nat) :
    ∀ (w : World) (source : Nat) (copy : Bool), (forward copied s gates w source copy).1.Held label → w.Held label := by
  induction gates with
  | nil => exact fun w source copy held => held
  | cons gate gates ih =>
    intro w source copy held
    unfold forward at held
    split at held
    · exact move_within w (copied gate) gate source copy (ih _ gate true held)
    · exact ih w source copy held

theorem forward_idle (source : Nat) (idle : gates.find? (w.activeGate s) = none) :
    forward copied s gates w source false = (w,source) := by
  induction gates with
  | nil => rfl
  | cons gate gates ih =>
    rw [List.find?_cons] at idle
    split at idle
    · cases idle
    · rename_i inactive
      rw [forward,if_neg (Bool.eq_false_iff.mp inactive)]
      exact ih idle

theorem forward_first (source : Nat)
    (found : gates.find? (w.activeGate s) = some first) : ∃ later, forward copied s gates w source false =
      forward copied s later (w.meshPathMoveToQueue (copied first) first source false) first true := by
  induction gates with
  | nil => cases found
  | cons gate gates ih =>
    rw [List.find?_cons] at found
    split at found
    · rename_i active
      cases found
      exact ⟨gates,by rw [forward,if_pos active]⟩
    · rename_i inactive
      obtain ⟨later,forwarded⟩ := ih found
      exact ⟨later,by rw [forward,if_neg (Bool.eq_false_iff.mp inactive),forwarded]⟩

end

theorem txPending_keeps (w : World) (p : Nat) : (w.meshPathTxPending p).mesh = w.mesh ∧
    (∀ skb, skb ∈ w.pending → skb ∈ (w.meshPathTxPending p).pending) ∧
    (∀ r skb, skb ∈ w.frameQueue r → skb ∈ (w.meshPathTxPending p).frameQueue r ∨ skb ∈ (w.meshPathTxPending p).pending) ∧
    ∀ label, (w.meshPathTxPending p).Held label → w.Held label := by
  unfold World.meshPathTxPending
  split
  · refine ⟨rfl,fun skb member => List.mem_append_left _ member,?_,?_⟩
    · intro r skb member
      by_cases same : r = p
      · subst same
        exact .inr (List.mem_append_right _ member)
      · refine .inl ?_
        rw [setQueue_other _ _ same]
        exact member
    rintro label ⟨skb,same,pending | ⟨r,queued⟩⟩
    · rcases List.mem_append.mp pending with old | new
      · exact ⟨skb,same,.inl old⟩
      · exact ⟨skb,same,.inr ⟨p,new⟩⟩
    · by_cases here : r = p
      · subst here
        rw [setQueue_self] at queued
        cases queued
      · rw [setQueue_other _ _ here] at queued
        exact ⟨skb,same,.inr ⟨r,queued⟩⟩
  · exact ⟨rfl,fun skb member => member,fun r skb member => .inl member,fun label held => held⟩

theorem sendPending_mesh (s : Nat) (gates : List Nat) : ∀ (w : World), (sendPending s gates w).mesh = w.mesh := by
  induction gates with
  | nil => exact fun w => rfl
  | cons gate gates ih =>
    intro w
    unfold sendPending
    split
    · rw [ih,(txPending_keeps w gate).1]
    · exact ih w

theorem sendPending_keeps (s : Nat) (gates : List Nat) : ∀ (w : World),
    (∀ skb, skb ∈ w.pending → skb ∈ (sendPending s gates w).pending) ∧
    (∀ r skb, skb ∈ w.frameQueue r → skb ∈ (sendPending s gates w).frameQueue r ∨ skb ∈ (sendPending s gates w).pending) ∧
    ∀ label, (sendPending s gates w).Held label → w.Held label := by
  induction gates with
  | nil => exact fun w => ⟨fun skb member => member,fun r skb member => .inl member,fun label held => held⟩
  | cons gate gates ih =>
    intro w
    unfold sendPending
    split
    · obtain ⟨-,pendingFirst,queuesFirst,heldFirst⟩ := txPending_keeps w gate
      obtain ⟨pendingRest,queuesRest,heldRest⟩ := ih (w.meshPathTxPending gate)
      refine ⟨fun skb member => pendingRest skb (pendingFirst skb member),?_,fun label held => heldFirst label (heldRest label held)⟩
      intro r skb member
      rcases queuesFirst r skb member with queued | pending
      · exact queuesRest r skb queued
      · exact .inr (pendingRest skb pending)
    · exact ih w

end walks

section conservation
variable {w : World}

structure World.Labelled (w : World) (p : Nat) : Prop where
  apart : ((w.frameQueue p).map Frame.label).Nodup
  pending : ∀ f ∈ w.frameQueue p, ∀ skb ∈ w.pending, skb.label ≠ f.label
  queues : ∀ f ∈ w.frameQueue p, ∀ r, r ≠ p → ∀ skb ∈ w.frameQueue r, skb.label ≠ f.label

def World.Kept (w : World) (p s label : Nat) : Prop := ∃ skb, skb.label = label ∧
  (skb ∈ w.pending ∨ skb ∈ w.frameQueue p ∨ ∃ g ∈ w.mesh.tbl.meshPaths.knownGates, w.activeGate s g = true ∧ skb ∈ w.frameQueue g)

def World.MovesAll (w : World) (copied : Nat → Bool) (gate source : Nat) : Prop :=
  gate = source ∨ w.nextHop gate = none ∨ Room copied (w.frameQueue gate).length (w.frameQueue source).length

theorem move_kept (all : w.MovesAll copied gate source) (queued : f ∈ w.frameQueue source) :
    ∃ skb, skb.label = f.label ∧ (skb ∈ (w.meshPathMoveToQueue copied gate source false).frameQueue gate ∨
      skb ∈ (w.meshPathMoveToQueue copied gate source false).frameQueue source) := by
  rcases move_spec w copied gate source false with ⟨-,kept⟩ | ⟨⟨other,hop⟩,prepare,n,labels,-,moved,whole⟩
  · rw [kept]
    exact ⟨f,rfl,.inr queued⟩
  · have room : Room copied (w.frameQueue gate).length (w.frameQueue source).length := by
      rcases all with same | missing | room
      · exact absurd same other
      · exact absurd missing hop
      · exact room
    refine ⟨prepare f,labels f,.inl ?_⟩
    rw [moved,setQueue_other _ _ other,setQueue_self,whole.mpr room,List.take_length]
    exact List.mem_append_right _ (List.mem_map_of_mem queued)

theorem labels_apart {frames : List Frame} (apart : (frames.map Frame.label).Nodup) (early : j < n) (inside : n < frames.length) :
    frames[j].label ≠ frames[n].label := by
  intro same
  have distinct := List.pairwise_iff_getElem.mp (List.pairwise_map.mp apart)
  exact distinct j n (Nat.lt_trans early inside) inside early same

theorem move_lost (labelled : w.Labelled source) (cut : ¬w.MovesAll copied gate source) :
    ∃ f ∈ w.frameQueue source, ¬(w.meshPathMoveToQueue copied gate source false).Held f.label := by
  unfold World.MovesAll at cut
  push Not at cut
  obtain ⟨other,hop,full⟩ := cut
  rcases move_spec w copied gate source false with ⟨same | missing,-⟩ | ⟨-,_,n,labels,bounded,moved,whole⟩
  · exact absurd same other
  · exact absurd missing hop
  have inside : n < (w.frameQueue source).length := Nat.lt_of_le_of_ne bounded fun all => full (whole.mp all)
  have there : (w.frameQueue source)[n] ∈ w.frameQueue source := List.getElem_mem inside
  refine ⟨(w.frameQueue source)[n],there,?_⟩
  rintro ⟨skb,same,pending | ⟨r,queued⟩⟩
  · rw [move_pending] at pending
    exact labelled.pending _ there skb pending same
  rw [moved] at queued
  by_cases back : r = source
  · subst back
    rw [setQueue_self] at queued
    cases queued
  rw [setQueue_other _ _ back] at queued
  by_cases forth : r = gate
  · subst forth
    rw [setQueue_self] at queued
    rcases List.mem_append.mp queued with old | new
    · exact labelled.queues _ there r back skb old same
    · obtain ⟨_,taken,rfl⟩ := List.mem_map.mp new
      rw [labels] at same
      obtain ⟨j,low,rfl⟩ := List.mem_take_iff_getElem.mp taken
      have early : j < n := (Nat.lt_min.mp low).1
      exact labels_apart labelled.apart early inside same
  · rw [setQueue_other _ _ forth] at queued
    exact labelled.queues _ there r back skb queued same

theorem send_mesh (w : World) (copied : Nat → Nat → Bool) (p : Nat) (m : MeshPath) : (w.meshPathSendToGates copied p m).1.mesh = w.mesh :=
  (sendPending_mesh m.sdata _ _).trans (forward_mesh copied m.sdata _ w p false)

section
variable (copied : Nat → Nat → Bool)

theorem send_kept (p : Nat) (m : MeshPath) (same : skb.label = label)
    (listed : r = p ∨ r ∈ w.mesh.tbl.meshPaths.knownGates ∧ w.activeGate m.sdata r = true)
    (queued : skb ∈ (forward copied m.sdata w.mesh.tbl.meshPaths.knownGates w p false).1.frameQueue r) :
    (w.meshPathSendToGates copied p m).1.Kept p m.sdata label := by
  have mesh := send_mesh w copied p m
  have kept := (sendPending_keeps m.sdata w.mesh.tbl.meshPaths.knownGates
    (forward copied m.sdata w.mesh.tbl.meshPaths.knownGates w p false).1).2.1 r skb queued
  refine ⟨skb,same,?_⟩
  unfold World.activeGate
  rw [mesh]
  rcases kept with queued | pending
  · rcases listed with rfl | ⟨gate,active⟩
    · exact .inr (.inl queued)
    · exact .inr (.inr ⟨r,gate,active,queued⟩)
  · exact .inl pending

theorem send_lost (p : Nat) (m : MeshPath) (labelled : w.Labelled p)
    (found : w.mesh.tbl.meshPaths.knownGates.find? (w.activeGate m.sdata) = some gate) (cut : ¬w.MovesAll (copied gate) gate p) :
    ∃ f ∈ w.frameQueue p, ¬(w.meshPathSendToGates copied p m).1.Kept p m.sdata f.label := by
  obtain ⟨f,queued,lost⟩ := move_lost labelled cut
  obtain ⟨later,forwarded⟩ := forward_first copied p found
  refine ⟨f,queued,?_⟩
  rintro ⟨skb,same,place⟩
  have held : (w.meshPathSendToGates copied p m).1.Held f.label := by
    rcases place with pending | queued | ⟨g,-,-,queued⟩
    · exact ⟨skb,same,.inl pending⟩
    · exact ⟨skb,same,.inr ⟨p,queued⟩⟩
    · exact ⟨skb,same,.inr ⟨g,queued⟩⟩
  have before := (sendPending_keeps m.sdata w.mesh.tbl.meshPaths.knownGates _).2.2 f.label held
  rw [forwarded] at before
  exact lost (forward_within copied m.sdata later _ gate true before)

theorem gates_conserve_exact (m : MeshPath) (labelled : w.Labelled p) :
    ((∀ f ∈ w.frameQueue p, (w.meshPathSendToGates copied p m).1.Kept p m.sdata f.label) ↔
      ∀ gate, w.mesh.tbl.meshPaths.knownGates.find? (w.activeGate m.sdata) = some gate → w.MovesAll (copied gate) gate p) ∧
    ∀ gate, (∀ f ∈ w.frameQueue p, ∃ skb, skb.label = f.label ∧
        (skb ∈ (w.meshPathMoveToQueue (copied gate) gate p false).frameQueue gate ∨
          skb ∈ (w.meshPathMoveToQueue (copied gate) gate p false).frameQueue p)) ↔ w.MovesAll (copied gate) gate p := by
  refine ⟨⟨?_,?_⟩,fun gate => ⟨?_,?_⟩⟩
  · intro conserved gate found
    by_contra cut
    obtain ⟨f,queued,lost⟩ := send_lost copied p m labelled found cut
    exact lost (conserved f queued)
  · intro all f queued
    cases found : w.mesh.tbl.meshPaths.knownGates.find? (w.activeGate m.sdata) with
    | none =>
      refine send_kept copied p m rfl (.inl rfl) ?_
      rw [forward_idle copied p found]
      exact queued
    | some gate =>
      obtain ⟨later,forwarded⟩ := forward_first copied p found
      have grown := forward_grows copied m.sdata later (w.meshPathMoveToQueue (copied gate) gate p false) gate
      obtain ⟨skb,same,atGate | atPath⟩ := move_kept (all gate found) queued
      · refine send_kept copied p m same (.inr ⟨List.mem_of_find?_eq_some found,List.find?_some found⟩) ?_
        rw [forwarded]
        exact grown.queues gate skb atGate
      · refine send_kept copied p m same (.inl rfl) ?_
        rw [forwarded]
        exact grown.queues p skb atPath
  · intro conserved
    by_contra cut
    obtain ⟨f,queued,lost⟩ := move_lost labelled cut
    obtain ⟨skb,same,atGate | atPath⟩ := conserved f queued
    · exact lost ⟨skb,same,.inr ⟨gate,atGate⟩⟩
    · exact lost ⟨skb,same,.inr ⟨p,atPath⟩⟩
  · intro all f queued
    exact move_kept all queued

end

end conservation

def samplePath (k : UInt8) : MeshPath := {newMpath (macAddr 2 0 0 0 0 k) (Vector.replicate 6 0) 0 broadcastAddr 0 with nextHop := some 0}
def sampleFrame (label : Nat) : Frame :=
  ⟨label,macAddr 2 0 0 0 0 1,macAddr 2 0 0 0 0 1,macAddr 2 0 0 0 0 5,macAddr 2 0 0 0 0 1,0,Vector.replicate 6 0,Vector.replicate 6 0⟩

def sampleWorld (held : Nat) : World where
  mesh := {MeshHwmp.sampleMesh with tbl := {MeshHwmp.sampleMesh.tbl with
    paths := [samplePath 5,{samplePath 6 with flags.active := true,isGate := true}],
    meshPaths := {MeshHwmp.sampleMesh.tbl.meshPaths with knownGates := [1]}}}
  frameQueue := fun r => if r = 0 then [sampleFrame 0] else if r = 1 then (List.range' 1 held).map sampleFrame else []
  pending := []

theorem sample_labelled (held : Nat) : (sampleWorld held).Labelled 0 := by
  refine ⟨List.nodup_singleton 0,fun f _ skb pending => absurd pending List.not_mem_nil,?_⟩
  intro f first r other _ queued same
  cases List.mem_singleton.mp first
  unfold sampleWorld at queued
  dsimp only at queued
  rw [if_neg other] at queued
  split at queued
  · obtain ⟨k,listed,rfl⟩ := List.mem_map.mp queued
    have positive := (List.mem_range'_1.mp listed).1
    exact absurd same (Nat.ne_of_gt positive)
  · cases queued

theorem gates_conserve_exact_sample :
    ((∀ f ∈ (sampleWorld 9).frameQueue 0, ((sampleWorld 9).meshPathSendToGates (fun _ _ => true) 0 (samplePath 5)).1.Kept 0 0 f.label) ↔
      ∀ gate, (sampleWorld 9).mesh.tbl.meshPaths.knownGates.find? ((sampleWorld 9).activeGate 0) = some gate →
        (sampleWorld 9).MovesAll (fun _ => true) gate 0) ∧
    ∀ gate, (∀ f ∈ (sampleWorld 9).frameQueue 0, ∃ skb, skb.label = f.label ∧
        (skb ∈ ((sampleWorld 9).meshPathMoveToQueue (fun _ => true) gate 0 false).frameQueue gate ∨
          skb ∈ ((sampleWorld 9).meshPathMoveToQueue (fun _ => true) gate 0 false).frameQueue 0)) ↔
      (sampleWorld 9).MovesAll (fun _ => true) gate 0 :=
  gates_conserve_exact (fun _ _ => true) (samplePath 5) (sample_labelled 9)

theorem full_gate_loses : ¬∀ f ∈ (sampleWorld 10).frameQueue 0,
    ((sampleWorld 10).meshPathSendToGates (fun _ _ => true) 0 (samplePath 5)).1.Kept 0 0 f.label := by
  intro conserved
  have cut : ¬(sampleWorld 10).MovesAll (fun _ => true) 1 0 := by
    rintro (same | missing | room)
    · cases same
    · cases missing
    · exact absurd (room 0 (by decide)).1 (by decide)
  obtain ⟨f,queued,lost⟩ := send_lost (fun _ _ => true) 0 (samplePath 5) (sample_labelled 10) rfl cut
  exact lost (conserved f queued)

end Mac80211.MeshGates

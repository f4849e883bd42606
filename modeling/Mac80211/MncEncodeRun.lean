import Mac80211.Guarded
import Mac80211.MncSends

namespace Mac80211.MncTx
open Gf Loops Guarded

section Encoding

variable (fuel : Nat)

def encodeOneRun (src : Bool) (p codingLen mncHdrlen : Nat) (skb : Skb) (e : Encoding) : Run Encoding :=
  let data := skb.data + (if src then etherHeadLen else 0)
  let dataNew := e.skbNew.data + etherHeadLen
  let e := forRange 0 p (fun i e => forRange 0 p (fun j e => drawCoefficient dataNew i j e) e) e
  let dataNew := dataNew + mncHdrlen
  (stepRun codingLen p (fun i mem =>
    .done (calData (fun o => skb.mem (data + i + o)) p e.coefficient (dataNew + i) mem)) fuel 0 e.skbNew.mem).bind fun mem =>
  .done {e with skbNew := {e.skbNew with mem := mem}}

def codingLen (src : Bool) (first : Skb) : Nat := if src then subU32 first.len etherHeadLen else first.len

def otherLength (first skb : Skb) : Bool := first.len ≠ skb.len

def makeSkbNewRun (par : TrParam) (skbs : List Skb) (p : Nat) (id : UInt8) (kernel : Kernel) : Run (Option Skb × Kernel) :=
  let k := skbs.length
  match skbs with
  | [] => .done (none,kernel)
  | first :: _ =>
    if k ≥ 0x1000000 then .done (none,kernel)
    else if p ≥ 0x100 then .done (none,kernel)
    else
      let mncHdrlen := p * p * k + 3
      let (skbNew,kernel) := skbCopy first kernel
      (walkRun (otherLength first) (encodeOneRun fuel par.src p (codingLen par.src first) mncHdrlen) fuel skbs
        ⟨prepareSkbNew par.src p k id skbNew,0,fun _ _ => 0,kernel⟩).bind fun e =>
      .done (some e.skbNew,e.kernel)

def enqueueOne (k p : Nat) (id : UInt8) (skb : Skb) (e : Enqueued) : Run Enqueued :=
  let (skbNewSys,kernel) := skbCopy skb e.kernel
  .done ⟨e.result ++ [systematic k p id e.j skbNewSys],e.j + 1,kernel⟩

def enqueueSkbOriginalRun (skbs : List Skb) (p : Nat) (id : UInt8) (result : List Skb) (kernel : Kernel) :
    Run (List Skb × Kernel) :=
  let k := skbs.length
  match skbs with
  | [] => .done (result,kernel)
  | first :: _ =>
    if k ≥ 0x1000000 then .done (result,kernel)
    else if p ≥ 0x100 then .done (result,kernel)
    else
      (walkRun (otherLength first) (enqueueOne k p id) fuel skbs ⟨result,0,kernel⟩).bind fun e => .done (e.result,e.kernel)

def codedPacketsRun (par : TrParam) (skbs : List Skb) (id : UInt8) (count : Nat) (result : List Skb) (kernel : Kernel) :
    Run (List Skb × Kernel) :=
  forRun 0 count (fun _ (result,kernel) => (makeSkbNewRun fuel par skbs P id kernel).bind fun
    | (none,kernel) => .done (result,kernel)
    | (some skb,kernel) => .done (result ++ [skb],kernel)) (result,kernel)

def encodedPacketsRun (par : TrParam) (skbs : List Skb) (id : UInt8) (kernel : Kernel) : Run (List Skb × Kernel) :=
  if par.sys then
    (enqueueSkbOriginalRun fuel skbs P id [] kernel).bind fun (result,kernel) =>
    if par.dataN > par.dataK then codedPacketsRun fuel par skbs id (par.dataN.toNat - par.dataK.toNat) result kernel
    else .done (result,kernel)
  else codedPacketsRun fuel par skbs id par.dataN.toNat [] kernel

def mncEncodingTxRun (par : TrParam) (skbs : List Skb) (dev : NetDevice) (id eid : UInt8) (kernel : Kernel) :
    Run (UInt8 × Kernel) :=
  (encodedPacketsRun fuel par skbs id kernel).bind fun (result,kernel) =>
  .done (if par.src then nextEid eid else eid,
    result.foldl (fun kernel skb => ieee80211SubifStartXmit skb dev kernel) kernel)

end Encoding

def walks (par : TrParam) : Bool := par.sys || par.dataN > 0
def codes (par : TrParam) : Bool := if par.sys then par.dataN > par.dataK else par.dataN > 0

structure Encodes (par : TrParam) (first : Skb) (rest : List Skb) : Prop where
  lengths : walks par = true → ∀ s ∈ first :: rest, s.len = first.len
  data : codes par = true → codingLen par.src first ≠ 2 ^ 32 - 1

theorem blockLoop_stuck (body : Nat → σ → σ) (fuel : Nat) (s : σ) :
    stepRun (2 ^ 32 - 1) P (fun i s => .done (body i s)) fuel 0 s = .going := by
  refine stepRun_stuck (fun i => i % 2 = 0 ∧ i < 2 ^ 32) ?_ (fun i s => ⟨_,rfl⟩) fuel ⟨rfl,by omega⟩ s
  rintro i ⟨_,_⟩
  have next : (i + P) % 2 ^ 32 = (i + 2) % 2 ^ 32 := rfl
  exact ⟨by omega,by omega,by omega⟩

theorem blockLoop_ends (fits : len < 2 ^ 32) (other : len ≠ 2 ^ 32 - 1) (enough : 2 ^ 32 ≤ fuel) (body : Nat → σ → σ) (s : σ) :
    stepRun len P (fun i s => .done (body i s)) fuel 0 s ≠ .going := by
  refine stepRun_ends (by decide) ?_ ?_ (fun i s same => by cases same) s
  · have half : (len + 2 - 1) / 2 * 2 < 2 ^ 32 := by omega
    exact half
  · have half : (len + 2 - 1) / 2 ≤ fuel := by omega
    exact half

section Ends

variable (par : TrParam) (id : UInt8)

theorem encodeOneRun_stuck (data : codingLen par.src first = 2 ^ 32 - 1) (fuel mncHdrlen : Nat) (skb : Skb) (e : Encoding) :
    encodeOneRun fuel par.src P (codingLen par.src first) mncHdrlen skb e = .going := by
  rw [data,encodeOneRun]
  exact congrArg (fun run : Run (Nat → UInt8) => run.bind _) (blockLoop_stuck _ fuel _)

theorem encodeOneRun_ends (fits : len < 2 ^ 32) (other : len ≠ 2 ^ 32 - 1) (enough : 2 ^ 32 ≤ fuel) (src : Bool)
    (mncHdrlen : Nat) (skb : Skb) (e : Encoding) : encodeOneRun fuel src P len mncHdrlen skb e ≠ .going := by
  refine Run.bind_ends (blockLoop_ends fits other enough _ _) fun mem _ => ?_
  exact fun same => by cases same

theorem encodeOneRun_faultless (fuel : Nat) (src : Bool) (p len mncHdrlen : Nat) (skb : Skb) (e : Encoding) :
    encodeOneRun fuel src p len mncHdrlen skb e ≠ .fault := by
  have safe : (encodeOneRun fuel src p len mncHdrlen skb e).Safe fun _ => True := by
    exact Run.bind_safe (stepRun_safe (fun _ _ => True) (fun i s _ _ => ⟨_,rfl,trivial⟩) fuel trivial) fun mem _ =>
      .inr ⟨_,rfl,trivial⟩
  exact Run.safe_faultless safe

theorem makeSkbNewRun_stuck (count : (first :: rest).length < 0x1000000)
    (loops : (∃ s ∈ first :: rest, otherLength first s = true) ∨ codingLen par.src first = 2 ^ 32 - 1) (fuel : Nat)
    (kernel : Kernel) : makeSkbNewRun fuel par (first :: rest) P id kernel = .going := by
  rw [makeSkbNewRun]
  dsimp only
  rw [if_neg (by omega),if_neg (by decide)]
  rcases loops with ⟨s,member,other⟩ | data
  · rw [walkRun_stuck member other (fun skb e => encodeOneRun_faultless _ _ _ _ _ skb e),Run.going_bind]
  · rw [walkRun_going (fun e => encodeOneRun_stuck par data _ _ first e),Run.going_bind]

theorem makeSkbNewRun_ends (size : first.len < 2 ^ 32) (ok : (first :: rest).length ≥ 0x1000000 ∨
      (∀ s ∈ first :: rest, s.len = first.len) ∧ codingLen par.src first ≠ 2 ^ 32 - 1)
    (steps : 2 ^ 32 ≤ fuel) (packets : (first :: rest).length ≤ fuel) (kernel : Kernel) :
    makeSkbNewRun fuel par (first :: rest) P id kernel ≠ .going := by
  rw [makeSkbNewRun]
  split
  · exact fun same => by cases same
  rename_i small
  obtain ⟨lengths,data⟩ := ok.resolve_left small
  have bound : codingLen par.src first < 2 ^ 32 := by
    unfold codingLen
    split
    · exact subU32_small size
    · exact size
  refine Run.bind_ends (walkRun_ends ?_ (fun skb e => encodeOneRun_ends bound data steps _ _ skb e) packets _) ?_
  · intro s member
    simp [otherLength,lengths s member]
  · exact fun e _ same => by cases same

theorem enqueueSkbOriginalRun_stuck (count : (first :: rest).length < 0x1000000)
    (other : ∃ s ∈ first :: rest, otherLength first s = true) (fuel p : Nat) (block : p < 0x100) (result : List Skb)
    (kernel : Kernel) : enqueueSkbOriginalRun fuel (first :: rest) p id result kernel = .going := by
  obtain ⟨s,member,other⟩ := other
  rw [enqueueSkbOriginalRun]
  rw [if_neg (by omega),if_neg (by omega),walkRun_stuck member other (fun skb e same => (by cases same)),Run.going_bind]

theorem enqueueSkbOriginalRun_faultless (fuel p : Nat) (result : List Skb) (kernel : Kernel) :
    enqueueSkbOriginalRun fuel (first :: rest) p id result kernel ≠ .fault := by
  rw [enqueueSkbOriginalRun]
  split
  · exact fun same => by cases same
  · split
    · exact fun same => by cases same
    · have walk : walkRun (otherLength first) (enqueueOne (first :: rest).length p id) fuel (first :: rest)
          ⟨result,0,kernel⟩ ≠ .fault := walkRun_faultless (fun skb e same => by cases same) fuel (first :: rest) _
      cases ran : walkRun (otherLength first) (enqueueOne (first :: rest).length p id) fuel (first :: rest) ⟨result,0,kernel⟩ with
      | done | going => exact fun same => by cases same
      | fault => exact absurd ran walk

theorem enqueueSkbOriginalRun_ends (ok : (first :: rest).length ≥ 0x1000000 ∨ ∀ s ∈ first :: rest, s.len = first.len)
    (packets : (first :: rest).length ≤ fuel) (p : Nat) (result : List Skb) (kernel : Kernel) :
    enqueueSkbOriginalRun fuel (first :: rest) p id result kernel ≠ .going := by
  rw [enqueueSkbOriginalRun]
  split
  · exact fun same => by cases same
  · rename_i small
    split
    · exact fun same => by cases same
    · have lengths := ok.resolve_left small
      refine Run.bind_ends (walkRun_ends ?_ (fun skb e same => by cases same) packets _) ?_
      · intro s member
        simp [otherLength,lengths s member]
      · exact fun e _ same => by cases same

theorem codedPacketsRun_stuck (some_packet : 0 < count) (count_bound : (first :: rest).length < 0x1000000)
    (loops : (∃ s ∈ first :: rest, otherLength first s = true) ∨ codingLen par.src first = 2 ^ 32 - 1) (fuel : Nat)
    (result : List Skb) (kernel : Kernel) :
    codedPacketsRun fuel par (first :: rest) id count result kernel = .going := by
  refine forRun_going some_packet (fun s => ?_) _
  dsimp only
  rw [makeSkbNewRun_stuck par id count_bound loops,Run.going_bind]

theorem codedPacketsRun_ends (size : first.len < 2 ^ 32) (ok : 0 < count → (first :: rest).length ≥ 0x1000000 ∨
      (∀ s ∈ first :: rest, s.len = first.len) ∧ codingLen par.src first ≠ 2 ^ 32 - 1)
    (steps : 2 ^ 32 ≤ fuel) (packets : (first :: rest).length ≤ fuel) (result : List Skb) (kernel : Kernel) :
    codedPacketsRun fuel par (first :: rest) id count result kernel ≠ .going := by
  refine forRun_ends (fun m s _ small => ?_) _
  refine Run.bind_ends (makeSkbNewRun_ends par id size (ok (by omega)) steps packets _) fun made _ => ?_
  obtain ⟨skb,_⟩ := made
  cases skb <;> exact fun same => by cases same

theorem encodedPacketsRun_stuck (count : (first :: rest).length < 0x1000000) (fails : ¬Encodes par first rest) (fuel : Nat)
    (kernel : Kernel) : encodedPacketsRun fuel par (first :: rest) id kernel = .going := by
  by_cases same : ∀ s ∈ first :: rest, s.len = first.len
  · -- The walks get to their end, and the data loop of the coded packets does not.
    obtain ⟨made,data⟩ : codes par = true ∧ codingLen par.src first = 2 ^ 32 - 1 := by
      by_contra fine
      exact fails ⟨fun _ => same,fun made data => fine ⟨made,data⟩⟩
    rw [encodedPacketsRun]
    rw [codes] at made
    split
    · rename_i sys
      rw [if_pos sys] at made
      have more : par.dataN > par.dataK := by simpa using made
      have some_packet : 0 < par.dataN.toNat - par.dataK.toNat := by
        have order : par.dataK.toNat < par.dataN.toNat := more
        omega
      have walk : enqueueSkbOriginalRun fuel (first :: rest) P id [] kernel ≠ .fault := enqueueSkbOriginalRun_faultless id fuel P [] kernel
      cases ran : enqueueSkbOriginalRun fuel (first :: rest) P id [] kernel with
      | done =>
        rw [Run.done_bind]
        dsimp only
        rw [if_pos more]
        exact codedPacketsRun_stuck par id some_packet count (.inr data) fuel _ _
      | fault => exact absurd ran walk
      | going => rfl
    · rename_i sys
      rw [if_neg sys] at made
      have some_packet : 0 < par.dataN.toNat := by
        have more : par.dataN > 0 := by simpa using made
        exact more
      exact codedPacketsRun_stuck par id some_packet count (.inr data) fuel _ _
  have other : ∃ s ∈ first :: rest, otherLength first s = true := by
    push Not at same
    obtain ⟨s,member,differs⟩ := same
    exact ⟨s,member,by simpa [otherLength] using fun equal => differs equal.symm⟩
  rw [encodedPacketsRun]
  split
  · rw [enqueueSkbOriginalRun_stuck id count other fuel P (by decide),Run.going_bind]
  · rename_i sys
    have some_packet : 0 < par.dataN.toNat := by
      by_contra none_made
      have zero : ¬par.dataN > 0 := fun more => none_made more
      exact fails ⟨fun walked => by simp [walks,sys,zero] at walked,fun made => by simp [codes,sys,zero] at made⟩
    exact codedPacketsRun_stuck par id some_packet count (.inl other) fuel _ _

theorem encodedPacketsRun_ends (sizes : ∀ s ∈ first :: rest, s.len < 2 ^ 32)
    (ok : (first :: rest).length ≥ 0x1000000 ∨ Encodes par first rest) (steps : 2 ^ 32 ≤ fuel)
    (packets : (first :: rest).length ≤ fuel) (kernel : Kernel) :
    encodedPacketsRun fuel par (first :: rest) id kernel ≠ .going := by
  have size := sizes first (by simp)
  rw [encodedPacketsRun]
  split
  · rename_i sys
    refine Run.bind_ends (enqueueSkbOriginalRun_ends id (ok.imp_right fun ok => ok.lengths (by simp [walks,sys])) packets _ _ _) ?_
    rintro ⟨_,_⟩ _
    dsimp only
    split
    · rename_i more
      refine codedPacketsRun_ends par id size (fun _ => ok.imp_right fun ok => ⟨?_,?_⟩) steps packets _ _
      · exact ok.lengths (by simp [walks,sys])
      · exact ok.data (by simp [codes,sys,more])
    · exact fun same => by cases same
  · rename_i sys
    refine codedPacketsRun_ends par id size (fun some_packet => ?_) steps packets _ _
    have more : par.dataN > 0 := some_packet
    exact ok.imp_right fun ok => ⟨ok.lengths (by simp [walks,more]),ok.data (by simp [codes,sys,more])⟩

theorem encoding_ends (sizes : ∀ s ∈ first :: rest, s.len < 2 ^ 32) (dev : NetDevice) (eid : UInt8) (kernel : Kernel) :
    (∃ fuel, mncEncodingTxRun fuel par (first :: rest) dev id eid kernel ≠ .going) ↔
      (first :: rest).length ≥ 0x1000000 ∨ Encodes par first rest := by
  constructor
  · rintro ⟨_,ends⟩
    by_contra fails
    rw [not_or] at fails
    refine ends ?_
    rw [mncEncodingTxRun,encodedPacketsRun_stuck par id (by omega) fails.2,Run.going_bind]
  · intro ok
    refine ⟨max (2 ^ 32) (first :: rest).length,?_⟩
    rw [mncEncodingTxRun]
    refine Run.bind_ends (encodedPacketsRun_ends par id sizes ok (Nat.le_max_left _ _) (Nat.le_max_right _ _) kernel) ?_
    exact fun made _ same => by cases same

end Ends

namespace EncodeSample

def packet (len : Nat) : Skb := {(default : Skb) with
  mem := fun a => if a = 24 then 0x15 else if a = 25 then 0xb3 else 0
  data := 16
  len := len
  transportHeader := 22}

def par : TrParam := trSetParam true true 2 2 0 0 0

def kernel : Kernel := ⟨0,fun _ => 0,0,[]⟩

end EncodeSample

open EncodeSample in
theorem encoding_ends_sample : portnum (packet 42) = 5555 ∧ ∃ fuel,
    mncEncodingTxRun fuel par [packet 42,packet 42] ⟨Vector.replicate 6 0⟩ 1 1 kernel ≠ .going := by
  refine ⟨rfl,(encoding_ends par 1 (by decide) _ _ _).mpr (.inr ⟨fun _ => by decide,fun made => ?_⟩)⟩
  exact absurd made (by decide)

open EncodeSample in
theorem encoding_never_ends : portnum (packet 42) = 5555 ∧ portnum (packet 43) = 5555 ∧ ¬∃ fuel,
    mncEncodingTxRun fuel par [packet 42,packet 43] ⟨Vector.replicate 6 0⟩ 1 1 kernel ≠ .going := by
  refine ⟨rfl,rfl,fun ⟨fuel,ends⟩ => ends ?_⟩
  have fails : ¬Encodes par (packet 42) [packet 43] := fun ok => absurd (ok.lengths (by decide)) (by decide)
  rw [mncEncodingTxRun,encodedPacketsRun_stuck par 1 (by decide) fails,Run.going_bind]

end Mac80211.MncTx

import Mac80211.KeysRestart
import Mac80211.KeysSelect
import Mac80211.McastSta

namespace Mac80211.KeysXmit
open Ieee80211 Keys

def encryptTailroom : Int := 18

-- dest: the station with the receiver's address; noEncrypt: a control port frame on an interface that does
-- not encrypt these; headNeed: what is missing of the headroom; allocated: whether pskb_expand_head finds
-- memory.
structure Frame where
  dest : Nat
  mpdu : Mpdu
  staMfp : Bool
  dontEncrypt : Bool
  noEncrypt : Bool
  tailroom : Int
  headNeed : Nat
  cloned : Bool
  cloneWritable : Bool
  allocated : Bool

structure World where
  keys : Keys.World
  net : McastSta.World
  supportsClonedSkbs : Bool

def lookupRaSta (net : McastSta.World) (d dest : Nat) : Option Nat :=
  match (net.sdata d).type with
  | .apVlan _ (some s) => some s
  | .apVlan true none => none
  | _ => if dest ∈ net.stations ∧ (net.sdata (net.sta dest).sdata).bss = (net.sdata d).bss then some dest else none

def tailNeed (w : World) (d : Nat) (f : Frame) (mayEncrypt : Bool) : Int :=
  if mayEncrypt ∧ w.keys.cryptoTxTailroomNeededCnt d ≠ 0 then max (encryptTailroom - f.tailroom) 0 else 0

-- The tailroom afterwards. pskb_expand_head gives what it is asked for or more.
def skbResize (w : World) (d : Nat) (f : Frame) (mayEncrypt : Bool) : Option Int :=
  let needed := w.keys.cryptoTxTailroomNeededCnt d ≠ 0
  let tailNeed := tailNeed w d f mayEncrypt
  if (f.cloned ∧ (!w.supportsClonedSkbs ∨ !f.cloneWritable ∨ needed)) ∨ f.headNeed ≠ 0 ∨ tailNeed ≠ 0 then
    if f.allocated then some (f.tailroom + tailNeed) else none
  else some f.tailroom

def xmit (w : World) (d : Nat) (f : Frame) : Option Int := skbResize w d f !f.dontEncrypt

def Frame.tx (f : Frame) (d s : Nat) : TxData := ⟨d,some s,f.staMfp,f.dontEncrypt || f.noEncrypt,f.mpdu⟩

-- A key for software, or for the driver with the Michael MIC made in software.
def soft (w : World) (tx : TxData) : Bool :=
  let selected := w.keys.selectKey tx
  !selected.drop && selected.key.any fun k => selected.hwKey.isNone || (w.keys.flags k).generateMmic

-- A station that goes takes its keys along.
inductive Event where
  | keys (e : Keys.Event) (running : ∀ i replies, e ≠ .enableKeys i replies)
  | net (e : McastSta.Event)

def step (w : World) : Event → World
  | .keys e _ => {w with keys := Keys.step w.keys e}
  | .net e =>
    let keys := match e with
      | .destroy s _ => if s ∈ w.net.stations then Keys.step w.keys (.freeStaKeys s) else w.keys
      | _ => w.keys
    {w with keys := keys,net := McastSta.step w.net e}

def run (w : World) (events : List Event) : World := events.foldl step w

def isVlan (sdata : Nat → McastSta.SubIf) (d : Nat) : Bool :=
  match (sdata d).type with
  | .ap => false
  | .apVlan _ _ => true

def start (hw : Hw) (supportsClonedSkbs : Bool) (sdata : Nat → McastSta.SubIf) : World where
  keys := Keys.step (initial hw) (.around (fun _ => false) (isVlan sdata) (fun _ => []) false)
  net := McastSta.start sdata
  supportsClonedSkbs := supportsClonedSkbs

structure Sent (w after : World) (d s : Nat) (f : Frame) (tailroom : Int) : Prop where
  receiver : lookupRaSta w.net d f.dest = some s
  unicast : (f.tx d s).multicast = false
  data : isData (f.tx d s).frameControl = true
  resized : xmit w d f = some tailroom
  soft : soft after (f.tx d s) = true

def World.ensures (w after : World) (d : Nat) (f : Frame) : Prop :=
  ∀ s tailroom, Sent w after d s f tailroom → encryptTailroom ≤ tailroom

def World.counts (w : World) (d : Nat) : Prop :=
  (∃ k ∈ w.keys.refs.keyList d, (w.keys.flags k).hardware = false) ∨ w.keys.cryptoTxTailroomPendingDec d ≠ 0

def World.provides (w after : World) (d : Nat) (f : Frame) : Prop :=
  ∀ s tailroom, Sent w after d s f tailroom → w.counts d ∨ encryptTailroom ≤ f.tailroom

section resize
variable {w : World} {f : Frame}

theorem step_reach (reach : MatchedReach hw w.keys) (e : Event) : MatchedReach hw (step w e).keys := by
  cases e with
  | keys e running =>
    refine .step reach e ?_
    cases e with
    | enableKeys i replies => exact absurd rfl (running i replies)
    | _ => trivial
  | net =>
    unfold step
    dsimp only
    split
    · split
      · exact .step reach _ trivial
      · exact reach
    · exact reach

theorem run_reach (reach : MatchedReach hw w.keys) (events : List Event) : MatchedReach hw (run w events).keys := by
  induction events generalizing w with
  | nil => exact reach
  | cons e rest ih => exact ih (step_reach reach e)

theorem start_reach (hw : Hw) (clones : Bool) (sdata : Nat → McastSta.SubIf) : MatchedReach hw (start hw clones sdata).keys :=
  .step .initial (.around _ _ _ _) trivial

theorem counts_iff (reach : MatchedReach hw w.keys) (d : Nat) : w.keys.cryptoTxTailroomNeededCnt d ≠ 0 ↔ w.counts d := by
  have balanced := matched_balanced reach
  have even := (balanced.counted (reach_sound reach.reach) d).1
  have pending := balanced.pending d
  have linked : w.keys.linkedSoft d ≠ 0 ↔ ∃ k ∈ w.keys.refs.keyList d, (w.keys.flags k).hardware = false := by
    unfold World.linkedSoft
    simp
  unfold World.counts
  rw [← linked]
  omega

theorem skbResize_adds (resized : skbResize w d f mayEncrypt = some tailroom) :
    tailroom = f.tailroom + tailNeed w d f mayEncrypt := by
  unfold skbResize at resized
  dsimp only at resized
  split at resized
  · split at resized
    · exact (Option.some.inj resized).symm
    · cases resized
  · rename_i enough
    have nothing : tailNeed w d f mayEncrypt = 0 := by
      by_contra more
      exact enough (.inr (.inr more))
    rw [nothing,Int.add_zero]
    exact (Option.some.inj resized).symm

theorem skbResize_tailroom (resized : skbResize w d f true = some tailroom) :
    encryptTailroom ≤ tailroom ↔ w.keys.cryptoTxTailroomNeededCnt d ≠ 0 ∨ encryptTailroom ≤ f.tailroom := by
  rw [skbResize_adds resized]
  unfold tailNeed
  by_cases needed : w.keys.cryptoTxTailroomNeededCnt d ≠ 0
  · rw [if_pos ⟨rfl,needed⟩]
    omega
  · rw [if_neg fun both => needed both.2]
    omega

theorem soft_mayEncrypt (key : soft after (f.tx d s) = true) : f.dontEncrypt = false := by
  cases plain : f.dontEncrypt with
  | false => rfl
  | true =>
    have picked : after.keys.pick (f.tx d s) = none := by
      unfold World.pick Frame.tx
      rw [plain,Bool.true_or]
      rfl
    unfold soft World.selectKey at key
    rw [picked] at key
    cases key

end resize

theorem tailroom_ensured (hw : Hw) (clones : Bool) (sdata : Nat → McastSta.SubIf) (events later : List Event) (d : Nat) (f : Frame) :
    (run (start hw clones sdata) events).ensures (run (start hw clones sdata) (events ++ later)) d f ↔
      (run (start hw clones sdata) events).provides (run (start hw clones sdata) (events ++ later)) d f := by
  have reach := run_reach (start_reach hw clones sdata) events
  refine forall_congr' fun s => forall_congr' fun tailroom => imp_congr_right fun sent => ?_
  have resized := sent.resized
  unfold xmit at resized
  rw [soft_mayEncrypt sent.soft] at resized
  rw [skbResize_tailroom resized,counts_iff reach]

def movedEvents : List Event :=
  [.net (.add 0 0 [.staAuth,.staAssoc] true),
    .keys (.around (fun _ => true) (fun d => d == 1) (fun _ => [1]) false) nofun,
    .keys (.link (pairwiseKey 0 0 .ccmp ⟨0,by decide⟩) ⟨-95,false,false,false⟩) nofun,
    .net (.move 0 .staAuthorized true),.net (.changeVlan 0 1)]

def movedStart : World := start plainHw true fun d => ⟨if d = 0 then .ap else .apVlan false none,0⟩

def movedFrame : Frame := ⟨0,dataTx.frame,false,false,false,0,0,false,true,true⟩

theorem tailroom_missing : ¬(run movedStart movedEvents).ensures (run movedStart movedEvents) 1 movedFrame := by
  intro always
  have sent : Sent (run movedStart movedEvents) (run movedStart movedEvents) 1 0 movedFrame 0 :=
    ⟨by decide,by decide,by decide,by decide,by decide⟩
  exact absurd (always 0 0 sent) (by decide)

end Mac80211.KeysXmit

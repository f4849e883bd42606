import Mac80211.PowerSave

namespace Mac80211.Tim
open PowerSave Loops

def tidBit (tid : Nat) : UInt16 := ⟨BitVec.twoPow 16 tid⟩
def setTid (bits : UInt16) (tid : Nat) : UInt16 := bits ||| tidBit tid
def clearTid (bits : UInt16) (tid : Nat) : UInt16 := bits &&& ~~~tidBit tid
def hasTid (bits : UInt16) (tid : Nat) : Bool := bits.toBitVec.getLsbD tid

def txqMap (queues : Nat → List PowerSave.Skb) (bits : UInt16) : UInt16 :=
  forRange 0 16 (fun tid bits => if (queues tid).length == 0 then setTid bits tid else clearTid bits tid) bits

def sleep (w : World) (i : Nat) (sta : StaInfo) (queues : Option (Nat → List PowerSave.Skb)) : World :=
  w.staPsStart i sta (queues.map fun queues => txqMap queues sta.txqBufferedTids)

def maxAid : Nat := 2007

-- The bits 0 to 2007 of ps->tim.
abbrev Bitmap := Vector UInt8 251

def byte (tim : Bitmap) (i : Nat) : UInt8 := (tim[i]?).getD 0
def aidBit (id : UInt16) : UInt8 := ⟨BitVec.twoPow 8 (id.toNat % 8)⟩
def bssTimGet (tim : Bitmap) (id : UInt16) : Bool := byte tim (id.toNat / 8) &&& aidBit id != 0
def bssTimSet (tim : Bitmap) (id : UInt16) : Bitmap :=
  tim.setIfInBounds (id.toNat / 8) (byte tim (id.toNat / 8) ||| aidBit id)
def bssTimClear (tim : Bitmap) (id : UInt16) : Bitmap :=
  tim.setIfInBounds (id.toNat / 8) (byte tim (id.toNat / 8) &&& ~~~aidBit id)

def ignoreForTim (uapsdQueues : UInt8) (ignorePending : Bool) : UInt8 :=
  if ignorePending then 15 else if uapsdQueues == 15 then 0 else uapsdQueues

def indicateTim (sta : StaInfo) (ignored : UInt8) : List Ac → Bool → Bool
  | [],on => on
  | ac :: rest,on =>
    if ignored &&& ac.bit != 0 then indicateTim sta ignored rest on
    else
      let on := on || !(sta.txFiltered.get ac).isEmpty || !(sta.psTxBuf.get ac).isEmpty
      if on then true
      else
        indicateTim sta ignored rest
          (on || sta.driverBufferedTids &&& ac.tids != 0 || sta.txqBufferedTids &&& ac.tids != 0)

def staIndicates (sta : StaInfo) (ignorePending : Bool) : Bool :=
  !sta.dead && indicateTim sta (ignoreForTim sta.uapsdQueues ignorePending) Ac.all false

def recalcTim (apLinkPs setTim : Bool) (sta : StaInfo) (tim : Bitmap) (id : UInt16) (ignorePending : Bool) : Bitmap × Option Bool :=
  if sta.type == .other then (tim,none)
  else if apLinkPs then (tim,none)
  else
    let on := staIndicates sta ignorePending
    if on == bssTimGet tim id then (tim,none)
    else (if on then bssTimSet tim id else bssTimClear tim id,if setTim && !sta.dead then some on else none)

section tids

theorem hasTid_bit (tid : Nat) : hasTid (tidBit tid) t = (decide (t < 16) && decide (tid = t)) := by
  unfold hasTid tidBit
  rw [BitVec.getLsbD_twoPow]
  by_cases same : tid = t
  · rw [same]
  · rw [decide_eq_false same,Bool.and_false,Bool.and_false]

theorem hasTid_set (low : t < 16) : hasTid (setTid bits tid) t = (hasTid bits t || decide (tid = t)) := by
  have bit := hasTid_bit (t := t) tid
  rw [decide_eq_true low,Bool.true_and] at bit
  rw [← bit]
  exact BitVec.getLsbD_or

theorem hasTid_clear (low : t < 16) : hasTid (clearTid bits tid) t = (hasTid bits t && !decide (tid = t)) := by
  have bit := hasTid_bit (t := t) tid
  rw [decide_eq_true low,Bool.true_and] at bit
  rw [← bit]
  have both : hasTid (clearTid bits tid) t = (hasTid bits t && (~~~(tidBit tid).toBitVec).getLsbD t) := BitVec.getLsbD_and
  rw [both,BitVec.getLsbD_not,decide_eq_true low,Bool.true_and]
  rfl

theorem hasTid_txqMap (low : t < 16) : hasTid (txqMap queues bits) t = decide (queues t = []) := by
  refine forRange_rule (fun k (map : UInt16) => t < k → hasTid map t = decide (queues t = [])) (Nat.zero_le 16)
    (fun none_yet => absurd none_yet (Nat.not_lt_zero t)) ?_ low
  intro k _ _ _ prior _
  by_cases last : k = t
  · subst last
    by_cases empty : queues k = []
    · rw [if_pos (by rw [empty]; rfl),hasTid_set low,decide_eq_true rfl,Bool.or_true,decide_eq_true empty]
    · rw [if_neg (by simpa using empty),hasTid_clear low,decide_eq_true rfl,Bool.not_true,Bool.and_false,decide_eq_false empty]
  · have before := prior (by omega)
    split
    · rw [hasTid_set low,decide_eq_false last,Bool.or_false,before]
    · rw [hasTid_clear low,decide_eq_false last,Bool.not_false,Bool.and_true,before]

end tids

-- Those not delivery-enabled, or all if all are.
def Considered (sta : StaInfo) (ac : Ac) : Prop := ignoreForTim sta.uapsdQueues false &&& ac.bit = 0

-- The map names the TIDs whose queues hold frames.
structure SleepMapped (w : World) (i : Nat) (sta : StaInfo) (queues : Nat → List PowerSave.Skb) (tim : Bitmap) (id : UInt16) : Prop where
  exact : ∀ after, (sleep w i sta (some queues)).stations[i]? = some after →
    ∀ t < 16, hasTid after.txqBufferedTids t = true ↔ queues t ≠ []
  indicated : w.apLinkPs = false → id.toNat ≤ maxAid →
    ∀ after, (sleep w i sta (some queues)).stations[i]? = some after → after.dead = false →
    (∃ ac, Considered after ac ∧ (after.txFiltered.get ac ≠ [] ∨ after.psTxBuf.get ac ≠ [] ∨
      after.driverBufferedTids &&& ac.tids ≠ 0 ∨ ∃ t < 16, hasTid ac.tids t = true ∧ queues t ≠ [])) →
    bssTimGet (recalcTim false true after tim id false).1 id = true

section asleep
variable {w : World} {i : Nat}

section
variable (found : w.stations[i]? = some sta) (type : sta.type.bssOrVlan = true) (queues : Nat → List PowerSave.Skb)
include found type

theorem sleep_station :
    (sleep w i sta (some queues)).stations[i]? =
      some {sta with psSta := true,txqBufferedTids := txqMap queues sta.txqBufferedTids,asleep := true} := by
  unfold sleep World.staPsStart
  rw [if_pos type]
  exact found_setSta (by rw [stations_addNumStaPs]; exact found) _

theorem sleep_inverts_map
    (tim : Bitmap) (id : UInt16) :
    (∀ after, (sleep w i sta (some queues)).stations[i]? = some after →
      ∀ t < 16, hasTid after.txqBufferedTids t = true ↔ queues t = []) ∧ ¬ SleepMapped w i sta queues tim id := by
  have slept := sleep_station found type queues
  have inverted : ∀ t < 16, hasTid (txqMap queues sta.txqBufferedTids) t = true ↔ queues t = [] := by
    intro t low
    rw [hasTid_txqMap low]
    exact decide_eq_true_iff
  refine ⟨?_,?_⟩
  · intro _ same
    rw [slept] at same
    cases same
    exact inverted
  · intro mapped
    have first := (inverted 0 (by decide)).symm.trans (mapped.exact _ slept 0 (by decide))
    exact (iff_not_self first)

end

end asleep

def sampleSleeper : StaInfo := newSta .ap 0 11 0 10 100
def sampleFrame : PowerSave.Skb := ⟨0,0x0288,.be,100,0,false⟩
def sampleQueues (tid : Nat) : List PowerSave.Skb := if tid = 0 ∨ tid = 3 then [sampleFrame] else []
def sampleAsleep : World := {sampleBss with stations := [sampleSleeper]}
def sampleTim : Bitmap := Vector.replicate 251 0

theorem sleep_inverts_map_sample : ¬ SleepMapped sampleAsleep 0 sampleSleeper sampleQueues sampleTim 1 :=
  (sleep_inverts_map rfl rfl sampleQueues sampleTim 1).2

theorem best_effort_unannounced :
    ¬ SleepMapped sampleAsleep 0 sampleSleeper sampleQueues sampleTim 1 ∧
    sampleQueues 0 = [sampleFrame] ∧ hasTid (txqMap sampleQueues 0) 0 = false ∧
    staIndicates {sampleSleeper with txqBufferedTids := txqMap sampleQueues 0} false = false := by
  refine ⟨?_,rfl,by decide,by decide⟩
  intro mapped
  have bit := (mapped.exact _ rfl 0 (by decide)).mpr (List.cons_ne_nil sampleFrame [])
  exact absurd bit (by decide)

end Mac80211.Tim

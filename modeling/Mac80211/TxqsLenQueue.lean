import Mac80211.TxqsLen

namespace Mac80211.TxqsLen
open Tally

def Config.canWake (cfg : Config) (hw : Hw) (d ac : Nat) : Bool :=
  cfg.interfaces.contains d && decide (ac < cfg.nAcs) && !(cfg.cabQueue d).any hw.stopped

-- A frame that a monitor sends to a station's queue has the vif of the virtual monitor.
def World.fair (cfg : Config) (w : World) : Event → Prop
  | .tx d monitorSdata s skb =>
    d ∈ cfg.interfaces ∧ (∀ m ∈ monitorSdata, m ∉ cfg.interfaces) ∧ (∀ i ∈ s, i ∈ w.stations) → cfg.vifType d = .monitor false →
      ∀ i ∈ s, (w.sta i).uploaded → skb.isData → skb.psResponse = false →
        match monitorSdata with
        | none => cfg.queueControl
        | some m => w.txqsLen m (Txq.sta i (skb.priority % 16)).ac + 1 < cfg.txqAcMaxPending
  | .dequeue q txqStop hw =>
    w.hasTxq cfg q → txqStop = false → ∀ skb rest, w.txqs q = skb :: rest →
      skb.vif = w.txqVif q ∧ (w.charged cfg skb.vif q.ac = 1 → w.reached skb.vif q.ac → cfg.canWake hw skb.vif q.ac)
  | .destroyStation s =>
    s ∈ w.stations → w.only s (w.sta s).sdata ∧
      ∀ ac, w.charged cfg (w.sta s).sdata ac = w.waiting ac s → w.reached (w.sta s).sdata ac = false
  | .ifStop d =>
    d ∈ cfg.interfaces → (∀ s ∈ w.stations, (w.sta s).sdata = d → w.only s d) ∧
      ∀ s ∈ w.stations, (w.sta s).sdata ≠ d → ∀ tid < 16, (Txq.sta s tid).ac = (Txq.vif d).ac → ∀ skb ∈ w.txqs (.sta s tid), skb.vif ≠ d
  | _ => True

section steps
variable {w : World}

theorem addLen_at (w : World) (d ac c a : Nat) (n : Int) :
    (w.addLen d ac n).txqsLen c a = w.txqsLen c a + if c = d ∧ a = ac then n else 0 := by
  unfold World.addLen
  dsimp only
  rw [update_pair]
  by_cases here : c = d ∧ a = ac
  · rw [if_pos here,if_pos here,here.1,here.2]
  · rw [if_neg here,if_neg here,Int.add_zero]

theorem txqOf_has (w : World) (found : txqOf cfg vif pubsta skb = some q)
    (stations : ∀ i ∈ pubsta, i ∈ w.stations) : w.hasTxq cfg q ∧ ∀ d, q = .vif d → vif = some d := by
  unfold txqOf at found
  split at found
  · cases found
  · split at found
    · cases found
    · split at found
      · cases Option.some.inj found
        exact ⟨⟨stations _ rfl,Nat.mod_lt _ (by decide)⟩,fun d same => by cases same⟩
      · obtain ⟨d,there,rfl⟩ := Option.map_eq_some_iff.mp found
        obtain ⟨same,inside⟩ := Option.filter_eq_some_iff.mp there
        exact ⟨List.contains_iff_mem.mp inside,fun _ same' => same.trans (congrArg some (Txq.vif.inj same'))⟩

def marked (stops : Bool) (bits : Nat → Nat → Bool) (d ac : Nat) : Nat → Nat → Bool :=
  if stops then Function.update bits d (Function.update (bits d) ac true) else bits

theorem marked_at (stops : Bool) (bits : Nat → Nat → Bool) (d ac c a : Nat) :
    marked stops bits d ac c a = (bits c a || stops && decide (c = d ∧ a = ac)) := by
  unfold marked
  cases stops with
  | false => rw [if_neg Bool.false_ne_true,Bool.false_and,Bool.or_false]
  | true =>
    rw [if_pos rfl,update_pair,Bool.true_and]
    split
    · rename_i here
      rw [decide_eq_true here,Bool.or_true]
    · rename_i other
      rw [decide_eq_false other,Bool.or_false]

structure Queued (w : World) (vif : Nat) (q : Txq) (skb : Skb) (after : World) : Prop where
  stations : after.stations = w.stations
  sta : after.sta = w.sta
  txqs : after.txqs = (w.setTxq q (w.txqs q ++ [{skb with vif := vif}])).txqs
  len : after.txqsLen = (w.addLen vif q.ac 1).txqsLen
  stops : ∃ stops, after.subqueue = marked stops w.subqueue vif q.ac ∧ after.reached = marked stops w.reached vif q.ac

theorem drvTx_queued (cfg : Config) (w : World)
    (found : txqOf cfg (some vif) pubsta skb = some q) : Queued w vif q skb (drvTx cfg w (some vif) pubsta skb) := by
  unfold drvTx
  rw [found]
  exact ⟨rfl,rfl,rfl,rfl,_,rfl,rfl⟩

theorem Queued.sound (queued : Queued w vif q skb after) (kept : w.kept) (sound : w.sound cfg)
    (has : w.hasTxq cfg q) : after.sound cfg := by
  intro d ac
  obtain ⟨stops,_,reached⟩ := queued.stops
  have change := charged_setTxq kept.distinct has (w.txqs q ++ [{skb with vif := vif}]) d ac
  have same : after.charged cfg d ac = (w.setTxq q (w.txqs q ++ [{skb with vif := vif}])).charged cfg d ac :=
    charged_same queued.stations queued.txqs
  rw [part_append,← same] at change
  have before := sound d ac
  rw [queued.len,addLen_at]
  refine ⟨?_,fun empty => ?_⟩
  · split <;> rename_i here
    · rw [if_pos here] at change
      omega
    · rw [if_neg here] at change
      omega
  · by_cases here : d = vif ∧ ac = q.ac
    · rw [if_pos here] at change
      omega
    · rw [if_neg here] at change
      rw [reached,marked_at,before.2 (by omega),decide_eq_false here,Bool.and_false,Bool.or_false]

theorem Queued.kept (queued : Queued w vif q skb after) (kept : w.kept)
    (name : ∀ d, q = .vif d → d = vif) : after.kept := by
  obtain ⟨stops,subqueue,reached⟩ := queued.stops
  refine ⟨queued.stations ▸ kept.distinct,fun d other member => ?_,fun d ac => ?_⟩
  · rw [queued.txqs] at member
    by_cases here : Txq.vif d = q
    · subst here
      rw [setTxq_self] at member
      rcases List.mem_append.mp member with old | new
      · exact kept.own d other old
      · rw [List.mem_singleton.mp new]
        exact (name d rfl).symm
    · rw [setTxq_other _ _ here] at member
      exact kept.own d other member
  · have bits := kept.bits d ac
    rw [subqueue,reached,marked_at,marked_at]
    grind

theorem drvTx_sound (kept : w.kept) (sound : w.sound cfg) (vif : Option Nat) (skb : Skb)
    (stations : ∀ i ∈ pubsta, i ∈ w.stations) : (drvTx cfg w vif pubsta skb).sound cfg ∧ (drvTx cfg w vif pubsta skb).kept := by
  cases found : txqOf cfg vif pubsta skb with
  | none =>
    unfold drvTx
    rw [found]
    exact ⟨sound,kept⟩
  | some =>
    obtain ⟨has,name⟩ := txqOf_has w found stations
    cases vif with
    | none =>
      unfold drvTx
      rw [found]
      exact ⟨sound,kept.distinct,kept.own,kept.bits⟩
    | some =>
      have queued := drvTx_queued cfg w found
      exact ⟨queued.sound kept sound has,queued.kept kept fun d same => (Option.some.inj (name d same)).symm⟩

theorem drvTx_fault (cfg : Config) (whole : w.fault = false) (vif : Option Nat) (pubsta : Option Nat) (skb : Skb) :
    (drvTx cfg w vif pubsta skb).fault = false ↔ ∀ q, txqOf cfg vif pubsta skb = some q →
      ∃ v, vif = some v ∧ (v ∈ cfg.interfaces ∨ w.txqsLen v q.ac + 1 < cfg.txqAcMaxPending) := by
  unfold drvTx
  cases found : txqOf cfg vif pubsta skb with
  | none => exact iff_of_true whole nofun
  | some q =>
    cases vif with
    | none =>
      refine iff_of_false nofun fun all => ?_
      obtain ⟨_,none_,_⟩ := all q rfl
      cases none_
    | some v =>
      have raised : (w.addLen v q.ac 1).txqsLen v q.ac = w.txqsLen v q.ac + 1 := by rw [addLen_at,if_pos ⟨rfl,rfl⟩]
      show (w.fault || decide _ && !cfg.interfaces.contains v) = false ↔ _
      rw [whole,raised]
      simp [or_iff_not_imp_right]

theorem txqOf_station {s : Option Nat} (outside : ∀ m ∈ monitorSdata, m ∉ cfg.interfaces) :
    txqOf cfg monitorSdata (s.filter fun i => (w.sta i).uploaded) skb = some q ↔
      ∃ i ∈ s, (w.sta i).uploaded ∧ skb.isData ∧ skb.psResponse = false ∧ q = .sta i (skb.priority % 16) := by
  have unqueued : (monitorSdata.filter cfg.interfaces.contains).map Txq.vif = none := by
    cases monitorSdata with
    | none => rfl
    | some m => simp [outside m rfl]
  unfold txqOf
  cases s with
  | none => simp [unqueued]
  | some i =>
    rw [Option.filter_some]
    cases up : (w.sta i).uploaded <;> cases skb.psResponse <;> cases skb.isData <;> simp [unqueued,up,eq_comm (b := q)]

theorem tx_sound (kept : w.kept) (sound : w.sound cfg) (whole : w.fault = false) (d : Nat) (monitorSdata s : Option Nat) (skb : Skb) :
    (((step cfg w (.tx d monitorSdata s skb)).fault = false ∧ (step cfg w (.tx d monitorSdata s skb)).sound cfg) ↔
      w.fair cfg (.tx d monitorSdata s skb)) ∧ (step cfg w (.tx d monitorSdata s skb)).kept := by
  unfold step World.fair
  dsimp only
  split
  · next there =>
    obtain ⟨member,outside,stations⟩ := there
    have stations : ∀ i ∈ s.filter fun i => (w.sta i).uploaded, i ∈ w.stations := fun i here => stations i (Option.mem_filter_iff.mp here).1
    have queued := drvTx_sound kept sound (transmitVif cfg d monitorSdata) skb stations
    have fault := drvTx_fault cfg whole (transmitVif cfg d monitorSdata) (s.filter fun i => (w.sta i).uploaded) skb
    unfold tx
    dsimp only
    split
    · next freed =>
      obtain ⟨nothing,queueControl⟩ := Bool.and_eq_true_iff.mp freed
      refine ⟨⟨fun _ _ plain i _ _ _ _ => ?_,fun _ => ⟨whole,sound⟩⟩,kept⟩
      rw [transmitVif,plain] at nothing
      rw [show monitorSdata = none from Option.isNone_iff_eq_none.mp nothing]
      exact queueControl
    · next sent =>
      refine ⟨?_,queued.2⟩
      rw [and_iff_left queued.1,fault]
      cases plain : cfg.vifType d with
      | monitor active =>
        cases active with
        | true => simp [transmitVif,plain,member]
        | false =>
          rw [show transmitVif cfg d monitorSdata = monitorSdata by simp [transmitVif,plain]] at sent ⊢
          simp only [txqOf_station outside]
          cases monitorSdata with
          | none =>
            have uncontrolled : cfg.queueControl = false := by simpa using sent
            simp [uncontrolled]
            grind
          | some m =>
            simp [outside m rfl]
            grind
      | apVlan bss => simp [transmitVif,plain,cfg.bssMember d member bss plain]
      | other => simp [transmitVif,plain,member]
  · next absent => exact ⟨⟨fun _ there => absurd there absent,fun _ => ⟨whole,sound⟩⟩,kept⟩

theorem wakes_empty (hw : Hw) (w : World) (d ac : Nat) (empty : w.txqsLen d ac = 0) :
    wakes cfg hw w (cfg.hwQueue d ac) d ac = cfg.canWake hw d ac := by
  unfold wakes Config.canWake
  rw [empty,beq_self_eq_true,Bool.true_or,Bool.and_true]
  have below : ¬(0 > (cfg.txqAcMaxPending : Int)) := by omega
  rw [decide_eq_false below,Bool.not_false,Bool.and_true]

structure Dequeued (cfg : Config) (hw : Hw) (w : World) (q : Txq) (rest : List Skb) (after : World) : Prop where
  stations : after.stations = w.stations
  txqs : after.txqs = (w.setTxq q rest).txqs
  len : after.txqsLen = (w.addLen (w.txqVif q) q.ac (-1)).txqsLen
  bits : ∀ c a, after.reached c a → w.reached c a ∧ after.subqueue c a = w.subqueue c a
  own : after.reached (w.txqVif q) q.ac = (w.reached (w.txqVif q) q.ac &&
    !(w.subqueue (w.txqVif q) q.ac && wakes cfg hw ((w.setTxq q rest).addLen (w.txqVif q) q.ac (-1)) (cfg.hwQueue (w.txqVif q) q.ac) (w.txqVif q) q.ac))

theorem txDequeue_dequeued (cfg : Config) (hw : Hw) (first : w.txqs q = skb :: rest) :
    Dequeued cfg hw w q rest (txDequeue cfg w q false hw) := by
  unfold txDequeue
  rw [if_neg Bool.false_ne_true,first]
  dsimp only
  rw [show ((w.setTxq q rest).addLen (w.txqVif q) q.ac (-1)).subqueue = w.subqueue from rfl]
  split
  · rename_i stopped
    refine ⟨rfl,rfl,rfl,fun c a => ?_,?_⟩
    · show (w.reached c a && !_) = true → w.reached c a = true ∧ (w.subqueue c a && !_) = w.subqueue c a
      grind
    · rw [stopped,Bool.true_and]
      rfl
  · rename_i running
    refine ⟨rfl,rfl,rfl,fun c a reached => ⟨reached,rfl⟩,?_⟩
    rw [Bool.eq_false_iff.mpr running,Bool.false_and,Bool.not_false,Bool.and_true]
    rfl

theorem Dequeued.kept (dequeued : Dequeued cfg hw w q rest after)
    (first : w.txqs q = skb :: rest) (kept : w.kept) : after.kept := by
  refine ⟨dequeued.stations ▸ kept.distinct,fun d other member => ?_,fun d ac reached => ?_⟩
  · rw [dequeued.txqs] at member
    by_cases here : Txq.vif d = q
    · subst here
      rw [setTxq_self] at member
      exact kept.own d other (first ▸ List.mem_cons_of_mem _ member)
    · rw [setTxq_other _ _ here] at member
      exact kept.own d other member
  · obtain ⟨before,same⟩ := dequeued.bits d ac reached
    rw [same]
    exact kept.bits d ac before

theorem Dequeued.sound_iff (dequeued : Dequeued cfg hw w q rest after)
    (first : w.txqs q = skb :: rest) (kept : w.kept) (sound : w.sound cfg) (has : w.hasTxq cfg q) :
    after.sound cfg ↔ skb.vif = w.txqVif q ∧ (w.charged cfg skb.vif q.ac = 1 → w.reached skb.vif q.ac → cfg.canWake hw skb.vif q.ac) := by
  have change : ∀ c a, (w.charged cfg c a : Int) = after.charged cfg c a + if c = skb.vif ∧ a = q.ac then 1 else 0 := by
    intro c a
    have moved := charged_setTxq kept.distinct has rest c a
    have same : after.charged cfg c a = (w.setTxq q rest).charged cfg c a := charged_same dequeued.stations dequeued.txqs
    rw [part_cons first,← same] at moved
    split at moved <;> rename_i here
    · rw [if_pos here]
      omega
    · rw [if_neg here]
      omega
  have len : ∀ c a, after.txqsLen c a = w.charged cfg c a - if c = w.txqVif q ∧ a = q.ac then 1 else 0 := by
    intro c a
    rw [dequeued.len,addLen_at,(sound c a).1]
    split <;> omega
  have woken : w.charged cfg (w.txqVif q) q.ac = 1 →
      wakes cfg hw ((w.setTxq q rest).addLen (w.txqVif q) q.ac (-1)) (cfg.hwQueue (w.txqVif q) q.ac) (w.txqVif q) q.ac =
        cfg.canWake hw (w.txqVif q) q.ac := by
    intro last
    refine wakes_empty hw _ _ _ ?_
    rw [addLen_at,if_pos ⟨rfl,rfl⟩,show (w.setTxq q rest).txqsLen = w.txqsLen from rfl,(sound _ _).1,last]
    rfl
  constructor
  · intro good
    have here := (good (w.txqVif q) q.ac).1
    have count := change (w.txqVif q) q.ac
    rw [len,if_pos ⟨rfl,rfl⟩] at here
    have same : w.txqVif q = skb.vif := by
      by_contra apart
      omega
    refine ⟨same.symm,?_⟩
    rw [← same] at count ⊢
    intro last reached
    have free := (good (w.txqVif q) q.ac).2 (by omega)
    rw [dequeued.own,reached,kept.bits _ _ reached,woken last] at free
    simpa using free
  rintro ⟨same,wake⟩ c a
  have count := change c a
  rw [same] at count wake
  by_cases here : c = w.txqVif q ∧ a = q.ac
  · obtain ⟨rfl,rfl⟩ := here
    refine ⟨by rw [len,if_pos ⟨rfl,rfl⟩]; omega,fun empty => ?_⟩
    have last : w.charged cfg (w.txqVif q) q.ac = 1 := by omega
    rw [dequeued.own,woken last]
    cases reached : w.reached (w.txqVif q) q.ac with
    | false => rfl
    | true =>
      rw [kept.bits _ _ reached,wake last reached]
      rfl
  · rw [if_neg here] at count
    refine ⟨by rw [len,if_neg here]; omega,fun empty => ?_⟩
    have free := (sound c a).2 (by omega)
    cases reached : after.reached c a with
    | false => rfl
    | true =>
      rw [(dequeued.bits c a reached).1] at free
      cases free

theorem dequeue_sound (kept : w.kept) (sound : w.sound cfg) (q : Txq) (txqStop : Bool) (hw : Hw) :
    ((step cfg w (.dequeue q txqStop hw)).sound cfg ↔ w.fair cfg (.dequeue q txqStop hw)) ∧
      (step cfg w (.dequeue q txqStop hw)).kept := by
  unfold step World.fair
  dsimp only
  split
  · rename_i has
    cases txqStop with
    | true => exact ⟨⟨fun _ _ running => absurd running (by decide),fun _ => sound⟩,kept⟩
    | false =>
      cases first : w.txqs q with
      | nil =>
        have same : txDequeue cfg w q false hw = w := by
          unfold txDequeue
          rw [if_neg Bool.false_ne_true,first]
        rw [same]
        exact ⟨⟨fun _ _ _ skb rest found => (by cases found),fun _ => sound⟩,kept⟩
      | cons skb rest =>
        have dequeued := txDequeue_dequeued cfg hw first
        refine ⟨(dequeued.sound_iff first kept sound has).trans ⟨fun good _ _ other others found => ?_,fun fair => fair has rfl skb rest rfl⟩,
          dequeued.kept first kept⟩
        cases found
        exact good
  · rename_i absent
    exact ⟨⟨fun _ has => absurd has absent,fun _ => sound⟩,kept⟩

end steps

end Mac80211.TxqsLen

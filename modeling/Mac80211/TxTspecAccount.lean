import Mac80211.TxTspec
import Mac80211.Transitions

namespace Mac80211.TxTspec

open Function (update update_of_ne update_self)
open RxReorder (Jiffies timeAfter)
open Transitions (Run)

attribute [local instance] someAcs

structure Tx where
  hdr : Frame
  txTime : UInt16
  now : Jiffies

def Event.txs : Event → List Tx
  | .notify hdr txTime now => [⟨hdr,txTime,now⟩]
  | _ => []

-- A new start of the slice begins the list anew.
def since (t t' : Tspec) (txs new : List Tx) : List Tx := if t'.timeSliceStart = t.timeSliceStart then txs ++ new else new

def Counts (cfg : Config) (ac : Ac) (start : Jiffies) (tx : Tx) : Prop :=
  Ieee80211.isDataQos (frameControl tx.hdr) = true ∧ frameAc tx.hdr = ac ∧ timeAfter tx.now (start + cfg.hz) = false

def Counted (cfg : Config) (ac : Ac) (t : Tspec) (txs : List Tx) : Prop :=
  ∃ counted : List Tx, counted.Sublist txs ∧ (∀ tx ∈ counted, Counts cfg ac t.timeSliceStart tx) ∧
    t.consumedTxTime.toNat = (counted.map fun tx => tx.txTime.toNat).sum

-- Its own parameters, a downgrade to come, those of a lower queue, the way back to come.
inductive Phase : Action → Bool → Bool → Prop where
  | normal : Phase .none false false
  | pending : Phase .downgrade true false
  | lowered : Phase .none true true
  | rising : Phase .stopDowngrade true true

structure AcSound (cfg : Config) (ac : Ac) (t : Tspec) (entry : Nat) (txs : List Tx) : Prop where
  counted : Counted cfg ac t txs
  room : t.downgraded = false → t.admittedTime ≠ 0 → t.consumedTxTime < t.admittedTime
  fresh : t.action = .stopDowngrade → t.consumedTxTime = 0
  phase : Phase t.action t.downgraded (decide (entry ≠ ac.val))

-- It comes in time, finds a lower queue without admission control, and the driver takes what it is given.
def workFine (cfg : Config) (a : Answers) (now : Jiffies) (s : Sdata) (ac : Ac) : Bool :=
  let t := s.txTspec ac
  match t.action with
  | .none => t.admittedTime == 0 || !expired cfg t now || !t.downgraded || a.takes ac (s.txConf ac)
  | .stopDowngrade => a.takes ac (s.txConf ac)
  | .downgrade => !expired cfg t now && decide (nonAcmAc s.wmmAcm ac < 4) && a.takes ac (confAt a s (nonAcmAc s.wmmAcm ac))

-- Only QoS data frames count, and none after the end of a slice whose downgrade is to come.
def timely (cfg : Config) (s : Sdata) : Event → Bool
  | .notify hdr _ now =>
    let t := s.txTspec (frameAc hdr)
    t.admittedTime == 0 ||
      (Ieee80211.isDataQos (frameControl hdr) || t.downgraded) && !(expired cfg t now && t.action == .downgrade)
  | .work a now => decide (cfg.queues < 4) || [0,1,2,3].all (workFine cfg a now s)
  | .wmmParams _ _ => true

section slices

theorem now_inside (cfg : Config) (now : Jiffies) : timeAfter now (now + cfg.hz) = false := by
  have small := cfg.small
  have back : now + cfg.hz - now = cfg.hz := by rw [UInt64.add_comm,UInt64.add_sub_cancel]
  unfold timeAfter
  rw [back]
  simpa using small

theorem expired_later (past : expired cfg t now = true) : now ≠ t.timeSliceStart := by
  rintro rfl
  rw [expired,now_inside] at past
  cases past

theorem admitted_bound (t : Tspec) : t.admittedTime.toNat = 32 * t.admitted.toNat := by
  have bound : t.admitted.toNat < 65536 := t.admitted.toNat_lt
  simp [Tspec.admittedTime]
  omega

theorem since_same (t : Tspec) (txs new : List Tx) : since t t txs new = txs ++ new := if_pos rfl

theorem counted_more (counted : Counted cfg ac t txs) (new : List Tx) : Counted cfg ac t (txs ++ new) := by
  obtain ⟨some,sub,counts,sum⟩ := counted
  exact ⟨some,sub.trans (List.sublist_append_left txs new),counts,sum⟩

theorem counted_none (zero : t.consumedTxTime = 0) (txs : List Tx) : Counted cfg ac t txs :=
  ⟨[],List.nil_sublist txs,nofun,by simp [zero]⟩

theorem counted_same (counted : Counted cfg ac t txs) (start : t'.timeSliceStart = t.timeSliceStart)
    (consumed : t'.consumedTxTime = t.consumedTxTime) : Counted cfg ac t' txs := by
  unfold Counted
  rw [start,consumed]
  exact counted

theorem counted_add (counted : Counted cfg ac t txs) (counts : Counts cfg ac t.timeSliceStart tx)
    (room : t.consumedTxTime < t.admittedTime) :
    Counted cfg ac {t with consumedTxTime := t.consumedTxTime + tx.txTime.toUInt32} (txs ++ [tx]) := by
  obtain ⟨some,sub,each,sum⟩ := counted
  refine ⟨some ++ [tx],sub.append (List.Sublist.refl [tx]),?_,?_⟩
  · intro other member
    obtain old | new := List.mem_append.mp member
    · exact each other old
    · exact List.mem_singleton.mp new ▸ counts
  · have below : t.consumedTxTime.toNat < 32 * t.admitted.toNat := by
      rw [← admitted_bound]
      exact UInt32.lt_iff_toNat_lt.mp room
    have units : t.admitted.toNat < 65536 := t.admitted.toNat_lt
    have time : tx.txTime.toNat < 65536 := tx.txTime.toNat_lt
    have total : (t.consumedTxTime + tx.txTime.toUInt32).toNat = t.consumedTxTime.toNat + tx.txTime.toNat := by
      rw [UInt32.toNat_add,UInt16.toNat_toUInt32]
      omega
    simp [total,sum]

theorem newSlice_sound (sound : AcSound cfg ac t entry txs) (late : t.action ≠ .downgrade) (new : List Tx) :
    AcSound cfg ac (newSlice t now) entry new := by
  refine ⟨counted_none rfl new,?_,fun _ => rfl,?_⟩
  · intro _ admitted
    exact UInt32.pos_iff_ne_zero.mpr admitted
  have phase := sound.phase
  unfold newSlice
  cases downgraded : t.downgraded with
  | false =>
    simpa [downgraded] using phase
  | true =>
    rw [downgraded] at phase
    generalize decide (entry ≠ ac.val) = lowered at phase ⊢
    generalize t.action = action at phase late
    cases phase with
    | pending => exact absurd rfl late
    | lowered | rising => simpa [downgraded] using Phase.rising

theorem consume_sound (sound : AcSound cfg ac t entry txs) (counts : Counts cfg ac t.timeSliceStart tx)
    (admitted : t.admittedTime ≠ 0) (up : t.downgraded = false) : AcSound cfg ac (consume t tx.txTime) entry (txs ++ [tx]) := by
  have counted := counted_add sound.counted counts (sound.room up admitted)
  have phase := sound.phase
  rw [up] at phase
  unfold consume
  dsimp only
  split_ifs with used
  · refine ⟨counted_same counted rfl rfl,nofun,nofun,?_⟩
    generalize decide (entry ≠ ac.val) = lowered at phase ⊢
    generalize t.action = action at phase
    cases phase with
    | normal => exact .pending
  · refine ⟨counted,fun _ _ => UInt32.not_le.mp used,?_,?_⟩
    · intro rising
      rw [rising] at phase
      cases phase
    · rw [up]
      exact phase

theorem consume_start (t : Tspec) (txTime : UInt16) : (consume t txTime).timeSliceStart = t.timeSliceStart := by
  unfold consume
  dsimp only
  split_ifs <;> rfl

theorem sound_more (sound : AcSound cfg ac t entry txs) (new : List Tx) : AcSound cfg ac t entry (txs ++ new) :=
  ⟨counted_more sound.counted new,sound.room,sound.fresh,sound.phase⟩

theorem counted_notify (tx : Tx) (sound : AcSound cfg ac t entry txs) (admitted : t.admittedTime ≠ 0)
    (counts : t.downgraded = false → Counts cfg ac t.timeSliceStart tx) :
    AcSound cfg ac (if t.downgraded then t else consume t tx.txTime) entry (txs ++ [tx]) := by
  cases downgraded : t.downgraded with
  | true => exact sound_more sound [tx]
  | false => exact consume_sound sound (counts downgraded) admitted downgraded

theorem notify_start (t : Tspec) (txTime : UInt16) : (if t.downgraded then t else consume t txTime).timeSliceStart = t.timeSliceStart := by
  cases t.downgraded with
  | true => rfl
  | false => exact consume_start t txTime

theorem notify_sound (sound : AcSound cfg ac t entry txs) (same : frameAc hdr = ac)
    (timely : t.admittedTime = 0 ∨
      (Ieee80211.isDataQos (frameControl hdr) = true ∨ t.downgraded = true) ∧ (expired cfg t now = false ∨ t.action ≠ .downgrade)) :
    AcSound cfg ac (notifyTspec cfg t now txTime) entry (since t (notifyTspec cfg t now txTime) txs [⟨hdr,txTime,now⟩]) := by
  unfold notifyTspec
  by_cases admitted : t.admittedTime = 0
  · rw [if_pos admitted,since,if_pos rfl]
    exact sound_more sound _
  obtain ⟨kind,intime⟩ := timely.resolve_left admitted
  have qos (up : t.downgraded = false) : Ieee80211.isDataQos (frameControl hdr) = true := kind.resolve_right (by simp [up])
  rw [if_neg admitted]
  cases past : expired cfg t now with
  | true =>
    have late : t.action ≠ .downgrade := intime.resolve_left (by simp [past])
    have begun : AcSound cfg ac (newSlice t now) entry [] := newSlice_sound sound late []
    have anew : (newSlice t now).timeSliceStart ≠ t.timeSliceStart := expired_later past
    rw [if_pos rfl,since,notify_start,if_neg anew]
    exact counted_notify ⟨hdr,txTime,now⟩ begun admitted fun up => ⟨qos up,same,now_inside cfg now⟩
  | false =>
    rw [if_neg Bool.false_ne_true,since,notify_start,if_pos rfl]
    exact counted_notify ⟨hdr,txTime,now⟩ sound admitted fun up => ⟨qos up,same,past⟩

end slices

section work

def Handed (s : Sdata) : Prop := ∀ call ∈ s.calls, ∃ queue : Ac, call.params = call.txConf queue

theorem drvConfTx_handed (handed : Handed s) (a : Answers) (ac queue : Ac) : Handed (drvConfTx a ac queue.val (s.txConf queue) s) := by
  intro call member
  have calls : (drvConfTx a ac queue.val (s.txConf queue) s).calls = s.calls ++ [⟨ac,s.txConf queue,s.txConf⟩] := by
    unfold drvConfTx
    split_ifs <;> rfl
  rw [calls] at member
  obtain old | new := List.mem_append.mp member
  · exact handed call old
  · cases List.mem_singleton.mp new
    exact ⟨queue,rfl⟩

theorem drvConfTx_takes (takes : a.takes ac params = true) (entry : Nat) :
    ((drvConfTx a ac entry params s).driver ac).entry = entry := by
  simp [drvConfTx,takes]

structure Beside (ac : Ac) (s s' : Sdata) : Prop where
  tspec : ∀ other ≠ ac, s'.txTspec other = s.txTspec other
  driver : ∀ other ≠ ac, s'.driver other = s.driver other
  conf : s'.txConf = s.txConf
  acm : s'.wmmAcm = s.wmmAcm

theorem drvConfTx_beside (a : Answers) (ac : Ac) (entry : Nat) (params : TxQueueParams) (s : Sdata) (t : Tspec) :
    Beside ac s ((drvConfTx a ac entry params s).setTspec ac t) := by
  unfold drvConfTx Sdata.setTspec
  split_ifs
  · exact ⟨fun other apart => update_of_ne apart _ _,fun other apart => update_of_ne apart _ _,rfl,rfl⟩
  · exact ⟨fun other apart => update_of_ne apart _ _,fun _ _ => rfl,rfl,rfl⟩

theorem setTspec_beside (ac : Ac) (t : Tspec) (s : Sdata) : Beside ac s (s.setTspec ac t) :=
  ⟨fun _ apart => update_of_ne apart _ _,fun _ _ => rfl,rfl,rfl⟩

theorem handleAction_beside (cfg : Config) (a : Answers) (now : Jiffies) (s : Sdata) (ac : Ac) (t : Tspec) :
    Beside ac s (handleAction cfg a now s ac t) := by
  unfold handleAction
  cases t.action with
  | stopDowngrade => exact drvConfTx_beside a ac _ _ s _
  | downgrade =>
    split_ifs
    · exact setTspec_beside ac _ s
    · exact drvConfTx_beside a ac _ _ s _
  | none => exact setTspec_beside ac _ s

theorem nonAcmAc_above (wmmAcm : UInt8) (ac : Ac) : ac.val < nonAcmAc wmmAcm ac := by
  unfold nonAcmAc
  cases found : (List.range' (ac.val + 1) (3 - ac.val)).find? fun lower => wmmAcm &&& (1 <<< UInt8.ofNat (7 - 2 * lower)) == 0 with
  | none => exact ac.isLt
  | some =>
    have member := List.mem_range'_1.mp (List.mem_of_find?_eq_some found)
    exact member.1

theorem handleAction_start (cfg : Config) (a : Answers) (now : Jiffies) (s : Sdata) (ac : Ac) (t : Tspec) :
    ((handleAction cfg a now s ac t).txTspec ac).timeSliceStart = t.timeSliceStart := by
  unfold handleAction Sdata.setTspec
  cases t.action with
  | stopDowngrade => simp
  | downgrade =>
    split_ifs <;> simp
  | none => simp

theorem handleAction_sound (sound : AcSound cfg ac t (s.driver ac).entry txs)
    (stops : t.action = .stopDowngrade → a.takes ac (s.txConf ac) = true)
    (lowers : t.action = .downgrade → expired cfg t now = false ∧ a.takes ac (confAt a s (nonAcmAc s.wmmAcm ac)) = true) :
    AcSound cfg ac ((handleAction cfg a now s ac t).txTspec ac) ((handleAction cfg a now s ac t).driver ac).entry txs := by
  have phase := sound.phase
  unfold handleAction
  cases action : t.action with
  | none => simpa [Sdata.setTspec] using sound
  | stopDowngrade =>
    have own := drvConfTx_takes (s := s) (stops action) ac.val
    refine ⟨?_,?_,?_,?_⟩
    · exact counted_same sound.counted (by simp [Sdata.setTspec]) (by simp [Sdata.setTspec])
    · intro _ admitted
      simp only [Sdata.setTspec,update_self] at admitted ⊢
      rw [sound.fresh action]
      exact UInt32.pos_iff_ne_zero.mpr admitted
    · simp [Sdata.setTspec]
    · simpa [Sdata.setTspec,own] using Phase.normal
  | downgrade =>
    obtain ⟨intime,takes⟩ := lowers action
    have other := drvConfTx_takes (s := s) takes (nonAcmAc s.wmmAcm ac)
    have above : nonAcmAc s.wmmAcm ac ≠ ac.val := Nat.ne_of_gt (nonAcmAc_above s.wmmAcm ac)
    have down : t.downgraded = true := by
      rw [action] at phase
      cases down : t.downgraded with
      | true => rfl
      | false =>
        rw [down] at phase
        cases phase
    rw [intime,if_neg Bool.false_ne_true]
    refine ⟨?_,?_,?_,?_⟩
    · exact counted_same sound.counted (by simp [Sdata.setTspec]) (by simp [Sdata.setTspec])
    · simp [Sdata.setTspec,down]
    · simp [Sdata.setTspec]
    · simpa [Sdata.setTspec,other,above,down] using Phase.lowered

section
variable (fine : workFine cfg a now s ac = true)
include fine

theorem workFine_none (action : (s.txTspec ac).action = .none)
    (admitted : (s.txTspec ac).admittedTime ≠ 0) (past : expired cfg (s.txTspec ac) now = true)
    (down : (s.txTspec ac).downgraded = true) : a.takes ac (s.txConf ac) = true := by
  simpa [workFine,action,admitted,past,down] using fine

theorem workFine_stop (action : (s.txTspec ac).action = .stopDowngrade) : a.takes ac (s.txConf ac) = true := by
  simpa [workFine,action] using fine

theorem workFine_downgrade (action : (s.txTspec ac).action = .downgrade) :
    expired cfg (s.txTspec ac) now = false ∧ nonAcmAc s.wmmAcm ac < 4 ∧ a.takes ac (confAt a s (nonAcmAc s.wmmAcm ac)) = true := by
  simpa [workFine,action,and_assoc] using fine

end

theorem handleAc_sound (sound : AcSound cfg ac (s.txTspec ac) (s.driver ac).entry txs) (fine : workFine cfg a now s ac = true) :
    AcSound cfg ac ((handleAc cfg a now s ac).txTspec ac) ((handleAc cfg a now s ac).driver ac).entry
      (since (s.txTspec ac) ((handleAc cfg a now s ac).txTspec ac) txs []) := by
  unfold handleAc
  dsimp only
  split_ifs with anew
  · obtain ⟨action,admitted,past⟩ := anew
    have late : (s.txTspec ac).action ≠ .downgrade := by
      rw [action]
      exact nofun
    have begun : (newSlice (s.txTspec ac) now).timeSliceStart ≠ (s.txTspec ac).timeSliceStart := expired_later past
    rw [since,handleAction_start,if_neg begun]
    refine handleAction_sound (newSlice_sound sound late []) ?_ ?_
    · intro rises
      cases down : (s.txTspec ac).downgraded with
      | true => exact workFine_none fine action admitted past down
      | false => simp [newSlice,action,down] at rises
    · intro lowers
      cases down : (s.txTspec ac).downgraded <;> simp [newSlice,action,down] at lowers
  · rw [since,handleAction_start,if_pos rfl,List.append_nil]
    refine handleAction_sound sound (workFine_stop fine) ?_
    intro lowers
    obtain ⟨intime,-,takes⟩ := workFine_downgrade fine lowers
    exact ⟨intime,takes⟩

theorem handleAc_handed (handed : Handed s) (fine : workFine cfg a now s ac = true) : Handed (handleAc cfg a now s ac) := by
  unfold handleAc
  dsimp only
  generalize chosen : (if (s.txTspec ac).action = .none ∧ (s.txTspec ac).admittedTime ≠ 0 ∧ expired cfg (s.txTspec ac) now = true then
    newSlice (s.txTspec ac) now else s.txTspec ac) = t
  unfold handleAction
  cases action : t.action with
  | none => exact handed
  | stopDowngrade => exact drvConfTx_handed handed a ac ac
  | downgrade =>
    dsimp only
    split_ifs with late
    · exact handed
    · have lowers : (s.txTspec ac).action = .downgrade := by
        split_ifs at chosen with anew
        · cases chosen
          cases down : (s.txTspec ac).downgraded <;> simp [newSlice,anew.1,down] at action
        · exact chosen ▸ action
      obtain ⟨-,bound,-⟩ := workFine_downgrade fine lowers
      have entry : confAt a s (nonAcmAc s.wmmAcm ac) = s.txConf ⟨nonAcmAc s.wmmAcm ac,bound⟩ := dif_pos bound
      rw [entry]
      exact drvConfTx_handed handed a ac ⟨nonAcmAc s.wmmAcm ac,bound⟩

theorem foldl_sound (txs : Ac → List Tx) (acs : List Ac) (distinct : acs.Nodup) (s : Sdata) (handed : Handed s)
    (sound : ∀ ac ∈ acs, AcSound cfg ac (s.txTspec ac) (s.driver ac).entry (txs ac))
    (fine : ∀ ac ∈ acs, workFine cfg a now s ac = true) :
    let s' := acs.foldl (handleAc cfg a now) s
    Handed s' ∧ (∀ ac ∉ acs, s'.txTspec ac = s.txTspec ac ∧ s'.driver ac = s.driver ac) ∧
    ∀ ac ∈ acs, AcSound cfg ac (s'.txTspec ac) (s'.driver ac).entry (since (s.txTspec ac) (s'.txTspec ac) (txs ac) []) := by
  induction acs generalizing s with
  | nil => exact ⟨handed,fun _ _ => ⟨rfl,rfl⟩,nofun⟩
  | cons ac rest ih =>
    obtain ⟨absent,apart⟩ := List.nodup_cons.mp distinct
    have beside : Beside ac s (handleAc cfg a now s ac) := handleAction_beside cfg a now s ac _
    have first := handleAc_sound (sound ac List.mem_cons_self) (fine ac List.mem_cons_self)
    have other {q : Ac} (member : q ∈ rest) : q ≠ ac := fun same => absent (same ▸ member)
    obtain ⟨good,kept,later⟩ := ih apart (handleAc cfg a now s ac) (handleAc_handed handed (fine ac List.mem_cons_self)) (by
      intro q member
      rw [beside.tspec q (other member),beside.driver q (other member)]
      exact sound q (List.mem_cons_of_mem ac member)) (by
      intro q member
      have before := fine q (List.mem_cons_of_mem ac member)
      unfold workFine confAt at before ⊢
      rwa [beside.tspec q (other member),beside.conf,beside.acm])
    refine ⟨good,?_,?_⟩
    · intro q missing
      have differs : q ≠ ac := fun same => missing (same ▸ List.mem_cons_self)
      have out : q ∉ rest := fun member => missing (List.mem_cons_of_mem ac member)
      rw [List.foldl_cons,(kept q out).1,(kept q out).2]
      exact ⟨beside.tspec q differs,beside.driver q differs⟩
    · intro q member
      obtain rfl | member := List.mem_cons.mp member
      · rw [List.foldl_cons,(kept q absent).1,(kept q absent).2]
        exact first
      · have after := later q member
        rwa [beside.tspec q (other member)] at after

end work

section updates

structure Updated (s s' : Sdata) : Prop where
  tspec : s'.txTspec = s.txTspec
  handed : Handed s → Handed s'
  driver : ∀ ac, (s'.driver ac).entry = (s.driver ac).entry ∨ ((s'.driver ac).entry = ac.val ∧ (s.txTspec ac).downgraded = false)

theorem updated_refl (s : Sdata) : Updated s s := ⟨rfl,id,fun _ => .inl rfl⟩

theorem Updated.trans (first : Updated s t) (second : Updated t u) : Updated s u := by
  refine ⟨second.tspec.trans first.tspec,second.handed ∘ first.handed,?_⟩
  intro ac
  obtain same | ⟨own,up⟩ := second.driver ac
  · rw [same]
    exact first.driver ac
  · exact .inr ⟨own,first.tspec ▸ up⟩

theorem drvConfTx_tspec (a : Answers) (ac : Ac) (entry : Nat) (params : TxQueueParams) (s : Sdata) :
    (drvConfTx a ac entry params s).txTspec = s.txTspec := by
  unfold drvConfTx
  split_ifs <;> rfl

theorem drvConfTx_driver (a : Answers) (queue : Ac) (entry : Nat) (params : TxQueueParams) (s : Sdata) (ac : Ac) :
    ((drvConfTx a queue entry params s).driver ac).entry = (s.driver ac).entry ∨
    (ac = queue ∧ ((drvConfTx a queue entry params s).driver ac).entry = entry) := by
  unfold drvConfTx
  split_ifs with takes
  · by_cases same : ac = queue
    · exact .inr ⟨same,by simp [same]⟩
    · exact .inl (by simp [same])
  · exact .inl rfl

theorem wmmRecord_updated (a : Answers) (uapsdQueues b0 b1 b2 b3 : UInt8) (s : Sdata) :
    Updated s (wmmRecord a uapsdQueues b0 b1 b2 b3 s) := by
  unfold wmmRecord
  obtain ⟨queue,bits,-⟩ := aciQueue ((b0 >>> 5) &&& 3)
  generalize wmmEntry uapsdQueues b0 b1 b2 b3 = params
  dsimp only
  cases down : (s.txTspec queue).downgraded with
  | true => exact ⟨rfl,id,fun _ => .inl rfl⟩
  | false =>
    refine ⟨drvConfTx_tspec a queue _ _ _,?_,?_⟩
    · intro handed
      have kept := drvConfTx_handed (s := {s with
        wmmAcm := if params.acm then s.wmmAcm ||| bits else s.wmmAcm
        txConf := update s.txConf queue params}) handed a queue queue
      dsimp only at kept
      rwa [update_self queue params s.txConf] at kept
    · intro ac
      obtain same | ⟨rfl,own⟩ := drvConfTx_driver a queue queue.val params {s with
        wmmAcm := if params.acm then s.wmmAcm ||| bits else s.wmmAcm
        txConf := update s.txConf queue params} ac
      · exact .inl same
      · exact .inr ⟨own,down⟩

theorem wmmRecords_updated (a : Answers) (uapsdQueues : UInt8) (records : List UInt8) (s : Sdata) :
    Updated s (wmmRecords a uapsdQueues records s) := by
  induction records,s using wmmRecords.induct a uapsdQueues with
  | case1 b0 b1 b2 b3 rest s ih => exact (wmmRecord_updated a uapsdQueues b0 b1 b2 b3 s).trans ih
  | case2 records s short =>
    unfold wmmRecords
    split
    · exact absurd rfl (short _ _ _ _ _)
    · exact updated_refl s

theorem staWmmParams_updated (cfg : Config) (a : Answers) (wmmParam : List UInt8) (s : Sdata) :
    Updated s (staWmmParams cfg a wmmParam s) := by
  unfold staWmmParams
  by_cases few : cfg.queues < 4
  · rw [if_pos few]
    exact updated_refl s
  by_cases malformed : wmmParam.length < 8 ∨ wmmParam.getD 5 0 ≠ 1
  · rw [if_neg few,if_pos malformed]
    exact updated_refl s
  rw [if_neg few,if_neg malformed]
  by_cases known : s.wmmLastParamSet = some (wmmParam.getD 6 0 &&& 0x0f)
  · rw [if_pos known]
    exact updated_refl s
  · rw [if_neg known]
    have records := wmmRecords_updated a (if s.uapsdEnabled then s.uapsdQueues else 0) (wmmParam.drop 8) {s with
      wmmLastParamSet := some (wmmParam.getD 6 0 &&& 0x0f)
      wmmAcm := 0}
    exact {records with}

theorem updated_sound (updated : Updated s s')
    (sound : AcSound cfg ac (s.txTspec ac) (s.driver ac).entry txs) :
    AcSound cfg ac (s'.txTspec ac) (s'.driver ac).entry (since (s.txTspec ac) (s'.txTspec ac) txs []) := by
  rw [updated.tspec,since,if_pos rfl,List.append_nil]
  obtain same | ⟨own,up⟩ := updated.driver ac
  · rwa [same]
  · have phase := sound.phase
    refine ⟨sound.counted,sound.room,sound.fresh,?_⟩
    rw [up] at phase ⊢
    generalize decide ((s.driver ac).entry ≠ ac.val) = lowered at phase
    generalize (s.txTspec ac).action = action at phase ⊢
    cases phase with
    | normal => simpa [own] using Phase.normal

end updates

section runs

structure World where
  sdata : Sdata
  sent : Ac → List Tx

def turn (cfg : Config) (w : World) (e : Event) : World :=
  ⟨step cfg w.sdata e,fun ac => since (w.sdata.txTspec ac) ((step cfg w.sdata e).txTspec ac) (w.sent ac) e.txs⟩

structure Sound (cfg : Config) (w : World) : Prop where
  queues : ∀ ac, AcSound cfg ac (w.sdata.txTspec ac) (w.sdata.driver ac).entry (w.sent ac)
  handed : Handed w.sdata

def Start (s : Sdata) : Prop :=
  s.calls = [] ∧ ∀ ac, (s.txTspec ac).consumedTxTime = 0 ∧ (s.txTspec ac).action = .none ∧ (s.txTspec ac).downgraded = false ∧
    (s.driver ac).entry = ac.val

theorem start_sound (start : Start s) : Sound cfg ⟨s,fun _ => []⟩ := by
  obtain ⟨empty,idle⟩ := start
  refine ⟨?_,?_⟩
  · intro ac
    obtain ⟨zero,action,up,own⟩ := idle ac
    refine ⟨counted_none zero [],?_,fun _ => zero,?_⟩
    · intro _ admitted
      rw [zero]
      exact UInt32.pos_iff_ne_zero.mpr admitted
    · simpa [action,up,own] using Phase.normal
  · intro _ member
    rw [empty] at member
    cases member

theorem turn_sound (e : Event) (sound : Sound cfg w) (intime : timely cfg w.sdata e = true) : Sound cfg (turn cfg w e) := by
  cases e with
  | notify hdr txTime now =>
    refine ⟨?_,sound.handed⟩
    intro ac
    unfold turn step staTxWmmAcNotify
    dsimp only
    by_cases same : frameAc hdr = ac
    · subst same
      have proper : (w.sdata.txTspec (frameAc hdr)).admittedTime = 0 ∨
          (Ieee80211.isDataQos (frameControl hdr) = true ∨ (w.sdata.txTspec (frameAc hdr)).downgraded = true) ∧
            (expired cfg (w.sdata.txTspec (frameAc hdr)) now = false ∨ (w.sdata.txTspec (frameAc hdr)).action ≠ .downgrade) := by
        simpa [timely] using intime
      simpa [Sdata.setTspec,Event.txs] using notify_sound (sound.queues (frameAc hdr)) rfl proper
    · have other : (Sdata.setTspec w.sdata (frameAc hdr) (notifyTspec cfg (w.sdata.txTspec (frameAc hdr)) now txTime)).txTspec ac =
          w.sdata.txTspec ac := update_of_ne (Ne.symm same) _ _
      rw [other,since_same]
      exact sound_more (sound.queues ac) _
  | work a now =>
    unfold turn step staHandleTspecAcParams
    split_ifs with few
    · refine ⟨?_,sound.handed⟩
      intro ac
      dsimp only
      rw [since_same]
      exact sound_more (sound.queues ac) _
    · have fine : ∀ ac ∈ ([0,1,2,3] : List Ac), workFine cfg a now w.sdata ac = true := by
        simpa [timely,few] using intime
      obtain ⟨handed,-,each⟩ := foldl_sound w.sent [0,1,2,3] (by decide) w.sdata sound.handed (fun ac _ => sound.queues ac) fine
      refine ⟨?_,handed⟩
      intro ac
      have all : ac ∈ ([0,1,2,3] : List Ac) := by
        revert ac
        decide
      exact each ac all
  | wmmParams a wmmParam =>
    have updated := staWmmParams_updated cfg a wmmParam w.sdata
    exact ⟨fun ac => updated_sound updated (sound.queues ac),updated.handed sound.handed⟩

theorem phase_downgraded (phase : Phase action downgraded lowered) : downgraded = true ↔ lowered = true ∨ action = .downgrade := by
  cases phase <;> simp

def Accounts (cfg : Config) (w : World) : Prop :=
  (∀ ac, Counted cfg ac (w.sdata.txTspec ac) (w.sent ac)) ∧ Handed w.sdata ∧
  ∀ ac, (w.sdata.txTspec ac).downgraded = true ↔ (w.sdata.driver ac).entry ≠ ac.val ∨ (w.sdata.txTspec ac).action = .downgrade

theorem tspec_accounts (cfg : Config) {s : Sdata} (start : Start s) {w : World}
    (path : Run (turn cfg) (fun w e => timely cfg w.sdata e) ⟨s,fun _ => []⟩ w) : Accounts cfg w := by
  have sound : Sound cfg w := path.keeps (Sound cfg) (start_sound start) fun _ e sound intime => turn_sound e sound intime
  refine ⟨fun ac => (sound.queues ac).counted,sound.handed,?_⟩
  intro ac
  have said := phase_downgraded (sound.queues ac).phase
  simpa using said

def ticks : Config := ⟨100,by decide,4⟩

def station (wmmAcm : UInt8) : Sdata := {
  uapsdEnabled := false
  uapsdQueues := 0
  wmmLastParamSet := none
  wmmAcm := wmmAcm
  txConf := fun ac => ⟨0,3,7,UInt8.ofNat ac.val,false,false⟩
  txTspec := fun ac => ⟨0,if ac = 0 then 1 else 0,0,.none,false⟩
  driver := fun ac => ⟨ac.val,⟨0,3,7,UInt8.ofNat ac.val,false,false⟩⟩
  calls := []
  qos := true}

theorem station_start (wmmAcm : UInt8) : Start (station wmmAcm) := ⟨rfl,fun _ => ⟨rfl,rfl,rfl,rfl⟩⟩

def agreeable : Answers := ⟨fun _ _ => true,⟨0,1,1,99,false,false⟩⟩

def frame (control : UInt8) : Frame := fun i => if i = 0 then control else if i = 24 then 6 else 0

def courseOf (wmmAcm : UInt8) (events : List Event) : World := events.foldl (turn ticks) ⟨station wmmAcm,fun _ => []⟩

theorem tspec_accounts_sample :
    let w := courseOf 0xc0 [.notify (frame 0x88) 40 50,.work agreeable 60]
    Accounts ticks w ∧ (w.sdata.driver 0).entry = 1 :=
  ⟨tspec_accounts ticks (station_start 0xc0)
    ((Run.start.next (e := Event.notify (frame 0x88) 40 50) (by decide +kernel)).next (e := Event.work agreeable 60) (by decide +kernel)),
    by decide +kernel⟩

-- The byte of a null frame is taken for QoS control; the work comes late; and all queues have admission
-- control.
theorem tspec_misaccounts :
    ¬(∀ es : List Event, Accounts ticks (courseOf 0xc0 es)) ∧
    ¬Counted ticks 0 ((courseOf 0xc0 [.notify (frame 0x48) 10 50]).sdata.txTspec 0) ((courseOf 0xc0 [.notify (frame 0x48) 10 50]).sent 0) ∧
    ¬Handed (courseOf 0xff [.notify (frame 0x88) 40 50,.work agreeable 60]).sdata := by
  refine ⟨?_,?_,?_⟩
  · intro always
    have said := (always [.notify (frame 0x88) 40 50,.work agreeable 200]).2.2 0
    revert said
    decide +kernel
  · rintro ⟨counted,sub,counts,sum⟩
    cases counted with
    | nil =>
      revert sum
      decide +kernel
    | cons tx rest =>
      have data := (counts tx List.mem_cons_self).1
      have member : tx ∈ [(⟨frame 0x48,10,50⟩ : Tx)] := sub.subset List.mem_cons_self
      rw [List.mem_singleton.mp member] at data
      revert data
      decide +kernel
  · intro handed
    obtain ⟨queue,_⟩ := handed ⟨0,⟨0,1,1,99,false,false⟩,(station 0xff).txConf⟩ (List.mem_singleton.mpr rfl)
    revert queue
    decide +kernel

end runs

end Mac80211.TxTspec

import Mac80211.AggHandoverNumber

namespace Mac80211.AggHandover

open List (mem_singleton mem_map)

def World.Apart (w : World) : Prop := ∀ s sec, w.mtx = some sec → ¬sec.Waits s

section steps
variable {w : World} {sec : Section}

theorem held_apart (held : w.mtx = some sec) (plain : ∀ s, ¬sec.Waits s) : w.Apart := by
  intro s _ same
  cases held.symm.trans same
  exact plain s

section
variable (sequenced : Sequenced w.numbering)
include sequenced

theorem goTo_sequenced (apart : w.Apart) (plain : sec.plain = true) : Sequenced (w.goTo sec).numbering :=
  plain_sequenced sequenced apart fun other held => by
    cases held
    exact plain

theorem unlock_sequenced (apart : w.Apart) : Sequenced w.unlock.numbering :=
  plain_sequenced sequenced apart fun other held => by cases held

theorem setState_sequenced (state : AggTx.State) (same : state.wantStart = (w.sessions s).state.wantStart)
    (off : state.operational = true → w.numbering.Early s → (w.sessions s).state.operational = true) :
    Sequenced (w.setState s state).numbering := by
  have want : (w.setState s state).numbering.wantStart = w.numbering.wantStart := funext fun t => setState_wantStart state same t
  have changed : Sequenced {w.numbering with operational := (w.setState s state).numbering.operational} :=
    operational_sequenced sequenced fun t early => by
      have before : (w.sessions t).state.operational = false := (sequenced.early t early).1
      unfold World.numbering World.setState World.setSession
      dsimp only
      split
      · next equal =>
        subst equal
        cases on : state.operational with
        | false => rfl
        | true => cases before.symm.trans (off on early)
      · exact before
  have equal : (w.setState s state).numbering =
      {w.numbering with operational := (w.setState s state).numbering.operational} :=
    congrArg (fun started => ({w.numbering with
      operational := (w.setState s state).numbering.operational,
      wantStart := started} : Numbering)) want
  rw [equal]
  exact changed

theorem startTxBaSession_sequenced (willing alloc : Bool) : Sequenced (w.startTxBaSession willing alloc).numbering := by
  unfold World.startTxBaSession
  split
  · exact sequenced
  next goes =>
  simp only [Bool.or_eq_true,Bool.not_eq_true',not_or,Bool.not_eq_false] at goes
  obtain ⟨⟨⟨_,current⟩,_⟩,_⟩ := goes
  have idle : w.tidTx = none := by simpa using current
  refine asked_sequenced sequenced idle fun s early => ?_
  have off := (sequenced.early s early).1
  unfold World.setSession
  dsimp only
  split
  · rfl
  · exact off

theorem stopTxBaSession_sequenced : Sequenced w.stopTxBaSession.numbering := by
  unfold World.stopTxBaSession
  split
  · exact sequenced
  · dsimp only
    split
    · exact sequenced
    · exact setState_sequenced sequenced _ rfl fun on _ => on

theorem baSessionWork_sequenced (started : w.numbering.Started) (held : w.mtx = some .work) :
    Sequenced w.baSessionWork.numbering := by
  unfold World.baSessionWork
  split
  · exact goTo_sequenced sequenced (held_apart held fun _ => id) rfl
  · next start asked _ => exact launched_sequenced sequenced asked
  · next start s asked current =>
    rcases started.one with none | none
    · cases none.symm.trans current
    · cases none.symm.trans asked

theorem wantStop_sequenced (apart : w.Apart) : Sequenced w.wantStop.numbering := by
  unfold World.wantStop
  split
  · exact unlock_sequenced sequenced apart
  · dsimp only
    split
    · exact goTo_sequenced (setState_sequenced sequenced _ rfl fun on _ => on) apart rfl
    · exact unlock_sequenced sequenced apart

theorem clearWantStart_sequenced (started : w.numbering.Started) (held : w.mtx = some (.clearWantStart s)) :
    Sequenced ((w.setState s {(w.sessions s).state with wantStart := false}).goTo (.startSync s w.begun)).numbering := by
  refine cleared_sequenced started sequenced held fun t early => ?_
  have off : (w.sessions t).state.operational = false := (sequenced.early t early).1
  unfold World.goTo World.setState World.setSession
  dsimp only
  split
  · next same =>
    subst same
    exact off
  · exact off

theorem stop_sequenced (apart : w.Apart) : Sequenced w.stop.numbering := by
  unfold World.stop
  split
  · exact unlock_sequenced sequenced apart
  next s current =>
  dsimp only
  split
  · exact unlock_sequenced sequenced apart
  · split
    · have result : Sequenced (({w with tidTx := none} : World).act [.freed s]).numbering :=
        trace_sequenced (over_sequenced sequenced) fun act there => by
          cases mem_singleton.mp there
          rfl
      exact unlock_sequenced result apart
    · exact goTo_sequenced (setState_sequenced sequenced _ rfl fun on _ => on) apart rfl

theorem startTxBaCb_sequenced (apart : w.Apart) : Sequenced w.startTxBaCb.numbering := by
  unfold World.startTxBaCb
  split
  · exact unlock_sequenced sequenced apart
  · dsimp only
    split
    · exact unlock_sequenced sequenced apart
    · exact goTo_sequenced (setState_sequenced sequenced _ rfl fun on _ => on) apart rfl

theorem addbaResp_sequenced (apart : w.Apart) (dialogToken : UInt8) (success : Bool) :
    Sequenced (w.addbaResp dialogToken success).numbering := by
  unfold World.addbaResp
  split
  · exact unlock_sequenced sequenced apart
  · split
    · exact unlock_sequenced sequenced apart
    · exact goTo_sequenced sequenced apart rfl

theorem addbaStatus_sequenced (apart : w.Apart) (s : Nat) (success : Bool) :
    Sequenced (w.addbaStatus s success).numbering := by
  unfold World.addbaStatus
  dsimp only
  split
  · exact unlock_sequenced sequenced apart
  · split
    · exact goTo_sequenced sequenced apart rfl
    · split
      · exact unlock_sequenced sequenced apart
      · exact goTo_sequenced (setState_sequenced sequenced _ rfl fun on _ => on) apart rfl

theorem stopTxBaCb_sequenced (apart : w.Apart) : Sequenced w.stopTxBaCb.numbering := by
  unfold World.stopTxBaCb
  split
  · exact unlock_sequenced sequenced apart
  · split
    · exact unlock_sequenced sequenced apart
    · exact goTo_sequenced (w := w.stopQueueAgg) sequenced apart rfl

end

theorem pending_numbering (w : World) (s : Nat) (pending : List Skb) :
    (w.setSession s {w.sessions s with pending := pending}).numbering = w.numbering := by
  unfold World.numbering World.setSession
  congr 1
  · funext t
    dsimp only
    split
    · next same => rw [same]
    · rfl
  · funext t
    dsimp only
    split
    · next same => rw [same]
    · rfl

section
variable (sequenced : Sequenced w.numbering)
include sequenced

theorem moveFrames_sequenced (s : Nat) : Sequenced (w.moveFrames s).numbering := by
  have emptied := pending_numbering w s []
  have moved : Sequenced (w.setSession s {w.sessions s with pending := []}).numbering := by
    rw [emptied]
    exact sequenced
  exact trace_sequenced moved fun act there => by
    cases mem_singleton.mp there
    rfl

theorem assign_sequenced (started : w.numbering.Started) (current : w.tidTx = some h.session)
    (held : w.mtx = some (.assign h)) : Sequenced ((w.assign h).goTo (.wake h)).numbering := by
  have apart : w.Apart := held_apart held fun _ => id
  cases h with
  | refused | removed => exact goTo_sequenced (w := {w with tidTx := none}) (over_sequenced sequenced) apart rfl
  | operational =>
    refine goTo_sequenced (setState_sequenced sequenced _ rfl fun _ early => ?_) apart rfl
    exact (current_late started current (fun sec same => by
      cases held.symm.trans same
      rfl) early).elim

theorem finish_sequenced (held : w.mtx = some (.wake h)) : Sequenced (w.finish h).unlock.numbering := by
  have freed : ∀ s, Sequenced (w.wakeQueueAgg.act [.freed s]).unlock.numbering := fun s =>
    unlock_sequenced (w := w.wakeQueueAgg.act [.freed s]) (trace_sequenced sequenced fun act there => by
        cases mem_singleton.mp there
        rfl) (held_apart held fun _ => id)
  cases h with
  | refused s | removed s => exact freed s
  | operational => exact unlock_sequenced (w := w.wakeQueueAgg) sequenced (held_apart held fun _ => id)

-- The grace period has ended: no path that began before it is left, so all are within the session.
theorem startSync_sequenced (held : w.mtx = some (.startSync s before))
    (waited : w.synchronized before = true) : Sequenced (w.goTo (.startSeq s)).numbering := by
  refine held_sequenced sequenced (fun t sec same waits p there => ?_) (fun t other same => ?_) (fun sec t same starts => ?_)
    fun sec t ssn same reads => ?_
  · cases held.symm.trans same
    cases waits
    have young : before ≤ p.id := of_decide_eq_true (List.all_eq_true.mp waited p there)
    exact (sequenced.grace s before held).2 p there young
  · cases same
  · cases same
    exact ⟨_,held,starts⟩
  · cases same
    rcases reads with same | same
    · cases same
    · cases same

theorem startSeq_sequenced (held : w.mtx = some (.startSeq s)) :
    Sequenced (w.goTo (.startDrv s (w.tidSeq >>> 4))).numbering := by
  refine held_sequenced sequenced (fun t sec same waits p there => ?_) (fun t other same => ?_) (fun sec t same starts => ?_)
    fun sec t ssn same reads => ?_
  · cases held.symm.trans same
    cases waits
  · cases same
  · cases same
    exact ⟨_,held,starts⟩
  · cases same
    rcases reads with same | same
    · cases same
      rfl
    · cases same

-- No path takes a number while the session is set up: the driver and the request get the same one.
theorem startDrv_sequenced (held : w.mtx = some (.startDrv s startSeqNum)) :
    Sequenced (w.goTo (.addbaRequest s startSeqNum)).numbering := by
  refine held_sequenced sequenced (fun t sec same waits p there => ?_) (fun t other same => ?_) (fun sec t same starts => ?_)
    fun sec t ssn same reads => ?_
  · cases held.symm.trans same
    cases waits
  · cases same
  · cases same
    exact ⟨_,held,starts⟩
  · cases same
    rcases reads with same | same
    · cases same
    · cases same
      exact sequenced.read _ s startSeqNum held (.inl rfl)

end

theorem goOn_sequenced (kept : Kept w.ledger) (sequenced : Sequenced w.numbering) (held : w.mtx = some sec) (good : Bool)
    (ran : w.goOn good sec = some w') : Sequenced w'.numbering := by
  have started := kept_started kept
  have known := kept.knows sec held
  have apart := held_apart held
  cases sec with
  | work =>
    cases ran
    exact baSessionWork_sequenced sequenced started held
  | wantStop =>
    cases ran
    exact wantStop_sequenced sequenced (apart fun _ => id)
  | clearWantStart =>
    cases ran
    exact clearWantStart_sequenced sequenced started held
  | startSync =>
    obtain ⟨waited,result⟩ := Option.ite_none_right_eq_some.mp ran
    cases result
    exact startSync_sequenced sequenced held waited
  | startSeq =>
    cases ran
    exact startSeq_sequenced sequenced held
  | startDrv =>
    cases ran
    split
    · exact startDrv_sequenced sequenced held
    · exact goTo_sequenced sequenced (apart fun _ => id) rfl
  | addbaRequest =>
    cases ran
    split
    · exact requested_sequenced started sequenced held
    · exact unlock_sequenced sequenced (apart fun _ => id)
  | stop =>
    cases ran
    exact stop_sequenced sequenced (apart fun _ => id)
  | stopClear =>
    cases ran
    refine goTo_sequenced (setState_sequenced sequenced _ rfl fun on _ => ?_) (apart fun _ => id) rfl
    cases on
  | stopSync =>
    obtain ⟨_,result⟩ := Option.ite_none_right_eq_some.mp ran
    cases result
    exact goTo_sequenced sequenced (apart fun _ => id) rfl
  | stopDrv =>
    cases ran
    exact unlock_sequenced sequenced (apart fun _ => id)
  | startCb =>
    cases ran
    exact startTxBaCb_sequenced sequenced (apart fun _ => id)
  | startCbReady | addbaReady =>
    cases ran
    split
    · exact goTo_sequenced sequenced (apart fun _ => id) rfl
    · exact unlock_sequenced sequenced (apart fun _ => id)
  | addbaResp dialogToken success =>
    cases ran
    exact addbaResp_sequenced sequenced (apart fun _ => id) dialogToken success
  | addbaStatus s success =>
    cases ran
    exact addbaStatus_sequenced sequenced (apart fun _ => id) s success
  | drvOperational =>
    cases ran
    exact goTo_sequenced sequenced (apart fun _ => id) rfl
  | stopCb =>
    cases ran
    exact stopTxBaCb_sequenced sequenced (apart fun _ => id)
  | splice =>
    cases ran
    exact goTo_sequenced (w := w.stopQueueAgg) sequenced (apart fun _ => id) rfl
  | move h =>
    cases ran
    exact goTo_sequenced (moveFrames_sequenced sequenced h.session) (apart fun _ => id) rfl
  | assign =>
    cases ran
    exact assign_sequenced sequenced started known.1 held
  | wake =>
    cases ran
    exact finish_sequenced sequenced held

end steps

section paths
variable {w : World} {k : Nat}

theorem leave_sequenced (started : w.numbering.Started) (sequenced : Sequenced w.numbering) (there : w.paths[k]? = some p) :
    Sequenced (w.leave k).numbering := by
  have left := path_sequenced (w.paths.eraseIdx k) [] w.tidSeq started sequenced (List.mem_of_getElem? there)
    (fun q present => .inl (List.mem_of_mem_eraseIdx present)) (fun _ _ _ none => by cases none) (fun _ _ none => by cases none)
    (fun q present _ _ => .inl (List.mem_of_mem_eraseIdx present)) (.inl rfl)
  rw [List.append_nil] at left
  exact left

theorem put_sequenced (acts : List Act) (seq : UInt16) (started : w.numbering.Started) (sequenced : Sequenced w.numbering)
    (there : w.paths[k]? = some p) (id : q.id = p.id) (goes : Goes w.numbering p.point q.point)
    (quiet : ∀ s token ssn, .addbaRequest s token ssn ∉ acts) (numbered : ∀ s skb, .numbered s skb ∈ acts → p.point = .handlers (some s))
    (counts : ∀ s, q.point = .nextSeq (some s) → ∃ skb, .numbered s skb ∈ acts)
    (written : seq = w.tidSeq ∨ ∃ flagged, p.point = .nextSeq flagged) :
    Sequenced {w.numbering with paths := w.paths.set k q,trace := w.trace ++ acts,tidSeq := seq} := by
  refine path_sequenced _ acts seq started sequenced (List.mem_of_getElem? there) (fun other present => ?_) quiet numbered
    (fun other present t numbering => ?_) written
  · rcases List.mem_or_eq_of_mem_set present with old | rfl
    · exact .inl old
    · exact .inr ⟨id,goes⟩
  · rcases List.mem_or_eq_of_mem_set present with old | rfl
    · exact .inl old
    · exact .inr (counts t numbering)

theorem moved_sequenced (seq : UInt16) (started : w.numbering.Started) (sequenced : Sequenced w.numbering) (there : w.paths[k]? = some p)
    (id : q.id = p.id) (goes : Goes w.numbering p.point q.point) (point : ∀ s, q.point ≠ .nextSeq (some s))
    (written : seq = w.tidSeq ∨ ∃ flagged, p.point = .nextSeq flagged) :
    Sequenced {w.numbering with paths := w.paths.set k q,tidSeq := seq} := by
  have put := put_sequenced [] seq started sequenced there id goes (fun _ _ _ none => by cases none) (fun _ _ none => by cases none)
    (fun s same => (point s same).elim) written
  rw [List.append_nil] at put
  exact put

theorem flag_sequenced (started : w.numbering.Started) (sequenced : Sequenced w.numbering) (there : w.paths[k]? = some p)
    (goes : Goes w.numbering p.point (.handlers (some s))) : Sequenced (w.flag k p s).numbering := by
  refine put_sequenced _ w.tidSeq started sequenced there rfl goes (fun t token ssn present => ?_) (fun t skb present => ?_) (fun t same => ?_)
    (.inl rfl)
  · cases mem_singleton.mp present
  · cases mem_singleton.mp present
  · cases same

theorem hold_sequenced (sequenced : Sequenced w.numbering) (s : Nat) (skb : Skb) : Sequenced (w.hold s skb).numbering := by
  have held : Sequenced (w.act [.held s skb]).numbering := trace_sequenced sequenced fun act there => by
    cases mem_singleton.mp there
    rfl
  have put : ∀ pending, Sequenced ((w.act [.held s skb]).setSession s {w.sessions s with pending := pending}).numbering := fun pending => by
    rw [show ((w.act [.held s skb]).setSession s {w.sessions s with pending := pending}).numbering = _ from
      pending_numbering (w.act [.held s skb]) s pending]
    exact held
  unfold World.hold
  dsimp only
  split
  · exact held
  · next oldest rest _ =>
    split
    · exact trace_sequenced (put rest) fun act there => by
        cases mem_singleton.mp there
        rfl
    · exact put (oldest :: rest)

theorem sequence_sequenced (started : w.numbering.Started) (sequenced : Sequenced w.numbering)
    (there : w.paths[k]? = some p) (point : p.point = .handlers flagged) : Sequenced (w.sequence k p flagged).numbering := by
  refine put_sequenced _ w.tidSeq started sequenced there rfl ?_ (fun s token ssn present => ?_) (fun s skb present => ?_) (fun s same => ?_)
    (.inl rfl)
  · rw [point]
    split
    · exact .inr rfl
    · exact .inl rfl
  · obtain ⟨t,_,same⟩ := mem_map.mp present
    cases same
  · obtain ⟨t,mem,same⟩ := mem_map.mp present
    cases same
    have flag : flagged = some s := Option.mem_toList.mp mem
    rw [point,flag]
  · split at same
    · cases same
    · cases same
      exact ⟨_,mem_map.mpr ⟨s,mem_singleton.mpr rfl,rfl⟩⟩

section
variable (started : w.numbering.Started) (sequenced : Sequenced w.numbering) (there : w.paths[k]? = some p)
include started sequenced there

theorem txFrags_sequenced : Sequenced (w.txFrags k p).numbering := by
  have left := leave_sequenced started sequenced there
  unfold World.txFrags
  split
  · split
    · exact left
    · exact left
  · exact left

theorem recheck_sequenced (point : p.point = .recheck) : Sequenced (w.recheck k p).numbering := by
  unfold World.recheck
  split
  · next idle =>
    refine moved_sequenced (q := p.at (.handlers none)) w.tidSeq started sequenced there rfl ?_ (fun s same => by cases same) (.inl rfl)
    rw [point]
    exact .inl ⟨idle,rfl⟩
  · next s current =>
    split
    · next on =>
      refine flag_sequenced started sequenced there ?_
      rw [point]
      exact .inr ⟨s,current,on,rfl⟩
    · exact hold_sequenced (leave_sequenced started sequenced there) s p.skb.queued

theorem point_sequenced (fate : Fate) (ran : w.path k fate p = some w') : Sequenced w'.numbering := by
  unfold World.path at ran
  split at ran
  · next point =>
    cases ran
    refine moved_sequenced w.tidSeq started sequenced there rfl ?_ (fun s same => ?_) (.inl rfl)
    · rw [point]
      cases current : w.tidTx with
      | none => exact .inl ⟨current,rfl⟩
      | some s => exact .inr ⟨s,current,rfl⟩
    · cases current : w.tidTx with
      | none | some =>
        rw [current] at same
        cases same
  · next s point =>
    cases ran
    split
    · next on =>
      refine flag_sequenced started sequenced there ?_
      rw [point]
      exact .inl ⟨on,rfl⟩
    · refine moved_sequenced (q := p.at (.wantStart s)) w.tidSeq started sequenced there rfl ?_ (fun t same => by cases same) (.inl rfl)
      rw [point]
      exact .inr rfl
  · next s point =>
    cases ran
    refine moved_sequenced w.tidSeq started sequenced there rfl ?_ (fun t same => ?_) (.inl rfl)
    · rw [point]
      split
      · next want => exact .inl ⟨want,rfl⟩
      · exact .inr rfl
    · split at same
      · cases same
      · cases same
  · next point =>
    split at ran
    · cases ran
    · cases ran
      exact recheck_sequenced started sequenced there point
  · next flagged point =>
    split at ran
    · cases ran
      exact sequence_sequenced started sequenced there point
    · cases ran
      exact leave_sequenced started sequenced there
    · cases ran
      exact leave_sequenced started sequenced there
  · next flagged point =>
    cases ran
    have goes : Goes w.numbering p.point (p.at .encrypt).point := by
      rw [point]
      rfl
    exact moved_sequenced (w := w) ((p.skb.seqCtrl + 0x10) &&& 0xfff0) started sequenced there rfl goes (fun t same => by cases same)
      (.inr ⟨flagged,point⟩)
  · next point =>
    cases ran
    split
    · exact leave_sequenced started sequenced there
    · refine moved_sequenced (q := p.at .frags) w.tidSeq started sequenced there rfl ?_ (fun t same => by cases same) (.inl rfl)
      rw [point]
      rfl
  · cases ran
    exact txFrags_sequenced started sequenced there

end

theorem enter_sequenced (sequenced : Sequenced w.numbering) (ran : w.enter sec = some w') (plain : sec.plain = true) :
    Sequenced w'.numbering := by
  unfold World.enter at ran
  split at ran
  · cases ran
  · next idle =>
    cases ran
    have none : w.mtx = none := by simpa using idle
    exact goTo_sequenced sequenced (fun s other held => by cases none.symm.trans held) plain

theorem txPending_sequenced (sequenced : Sequenced w.numbering) (ran : w.txPending = some w') : Sequenced w'.numbering := by
  unfold World.txPending at ran
  split at ran
  · cases ran
  · split at ran
    · cases ran
      exact sequenced
    · next skb rest _ =>
      cases ran
      refine begun_sequenced sequenced rfl ?_
      split
      · exact .inl rfl
      · exact .inr rfl

theorem handleFiltered_sequenced (sequenced : Sequenced w.numbering) (skb : Skb) (asleep : Bool) :
    Sequenced (w.handleFiltered skb asleep).numbering := by
  unfold World.handleFiltered
  split
  · exact sequenced
  · split <;> exact sequenced

theorem deliverResponse_sequenced (sequenced : Sequenced w.numbering) : Sequenced w.deliverResponse.numbering := by
  unfold World.deliverResponse
  split <;> exact sequenced

theorem step_sequenced (kept : Kept w.ledger) (sequenced : Sequenced w.numbering) (e : Event) (ran : step e w = some w') :
    Sequenced w'.numbering := by
  cases e with
  | startTxBaSession willing alloc =>
    obtain ⟨_,result⟩ := Option.ite_none_left_eq_some.mp ran
    cases result
    exact startTxBaSession_sequenced sequenced willing alloc
  | stopTxBaSession =>
    obtain ⟨_,result⟩ := Option.ite_none_left_eq_some.mp ran
    cases result
    exact stopTxBaSession_sequenced sequenced
  | work | stop | startCb | stopCb | addbaResp => exact enter_sequenced sequenced ran rfl
  | goOn good =>
    obtain ⟨_,held,ran⟩ := Option.bind_eq_some_iff.mp ran
    exact goOn_sequenced kept sequenced held good ran
  | xmit =>
    cases ran
    exact begun_sequenced sequenced rfl (.inl rfl)
  | path k fate =>
    obtain ⟨p,there,ran⟩ := Option.bind_eq_some_iff.mp ran
    exact point_sequenced (kept_started kept) sequenced there fate ran
  | tasklet | otherFinishes =>
    obtain ⟨_,result⟩ := Option.ite_none_left_eq_some.mp ran
    cases result
    exact sequenced
  | txPending => exact txPending_sequenced sequenced ran
  | filtered k asleep =>
    obtain ⟨skb,_,rfl⟩ := Option.map_eq_some_iff.mp ran
    exact handleFiltered_sequenced (w := {w with driver := w.driver.eraseIdx k}) sequenced skb asleep
  | deliverWakeup | stopQueue | otherSplices =>
    cases ran
    exact sequenced
  | deliverResponse =>
    cases ran
    exact deliverResponse_sequenced sequenced

theorem initial_sequenced (initial : w.Initial) : Sequenced w.numbering := by
  have none : ∀ act, act ∉ w.trace := fun act there => by
    rw [initial.trace] at there
    cases there
  have empty : ∀ p, p ∉ w.paths := fun p there => by
    rw [initial.paths] at there
    cases there
  exact {
    ids := fun p there => (empty p there).elim
    grace := fun s before held => by cases initial.mtx.symm.trans held
    within := fun s current => by cases initial.tidTx.symm.trans current
    early := fun s _ => ⟨initial.operational s,fun p there => (empty p there).elim,fun skb => none _,fun token ssn => none _⟩
    counted := fun p there => (empty p there).elim
    read := fun sec s ssn held => by cases initial.mtx.symm.trans held
    next := fun s token ssn there => (none _ there).elim}

theorem run_sequenced (initial : start.Initial) (run : Run fine start w) :
    Sequenced w.numbering := by
  induction run with
  | refl => exact initial_sequenced initial
  | step prior _ ran ih => exact step_sequenced (run_kept initial prior) ih _ ran

end paths

end Mac80211.AggHandover

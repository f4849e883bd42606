import Mac80211.AggHandoverRun

namespace Mac80211.AggHandover

def Act.numberedIn (s : Nat) : Act → Bool
  | .numbered t _ => decide (t = s)
  | _ => false

-- The first frame numbered under a session is no retransmission, and the session is the current one.
def careful (w : World) : Event → Bool
  | .path k .passed =>
    match w.paths[k]? with
    | none => true
    | some p =>
      match p.point with
      | .handlers (some s) => w.trace.any (Act.numberedIn s) || !p.skb.retransmission && decide (w.tidTx = some s)
      | _ => true
  | _ => true

def Careful (w : World) (e : Event) : Prop := careful w e = true

-- The request has the number of the first frame, and goes out before that frame gets it.
def FirstNumber (trace : List Act) : Act → Prop
  | .numbered s skb => Unnumbered s trace → ∀ token ssn, .addbaRequest s token ssn ∈ trace → skb.seqCtrl >>> 4 = ssn
  | .addbaRequest s _ _ => Unnumbered s trace
  | _ => True

def Act.plain : Act → Bool
  | .addbaRequest .. => false
  | .numbered .. => false
  | .moved .. => false
  | _ => true

inductive Grows (w w' : World) (e : Event) : Prop
  | plain (acts : List Act) (trace : w'.trace = w.trace ++ acts) (plain : ∀ act ∈ acts, act.plain = true)
  | asked (s : Nat) (token : UInt8) (ssn : UInt16) (held : w.mtx = some (.addbaRequest s ssn))
    (trace : w'.trace = w.trace ++ [.addbaRequest s token ssn])
  | moved (h : Handover) (trace : w'.trace = w.trace ++ [.moved h.session (w.sessions h.session).pending])
    (pending : w'.pending = w.pending ++ (w.sessions h.session).pending)
  | numbered (k : Nat) (p : Path) (s : Nat) (skb : Skb) (passed : e = .path k .passed) (there : w.paths[k]? = some p)
    (point : p.point = .handlers (some s)) (number : p.skb.retransmission = true ∨ skb.seqCtrl = w.tidSeq)
    (trace : w'.trace = w.trace ++ [.numbered s skb])

section grows
variable {w : World}

theorem grows_none (same : w'.trace = w.trace) : Grows w w' e :=
  .plain [] (same.trans (List.append_nil _).symm) fun _ none => by cases none

theorem grows_one (trace : w'.trace = w.trace ++ [act]) (plain : act.plain = true) : Grows w w' e :=
  .plain [act] trace fun other there => by
    cases List.mem_singleton.mp there
    exact plain

theorem goOn_grows (held : w.mtx = some sec) (good : Bool) (ran : w.goOn good sec = some w') : Grows w w' e := by
  cases sec with
  | work =>
    cases ran
    unfold World.baSessionWork
    split
    · exact grows_none rfl
    · exact grows_none rfl
    · exact grows_one rfl rfl
  | wantStop =>
    cases ran
    unfold World.wantStop
    split
    · exact grows_none rfl
    · dsimp only
      split <;> exact grows_none rfl
  | clearWantStart | startSeq | stopClear | stopDrv | drvOperational | splice =>
    cases ran
    exact grows_none rfl
  | startSync | stopSync =>
    obtain ⟨_,result⟩ := Option.ite_none_right_eq_some.mp ran
    cases result
    exact grows_none rfl
  | startDrv | startCbReady | addbaReady =>
    cases ran
    split <;> exact grows_none rfl
  | addbaRequest s startSeqNum =>
    cases ran
    split
    · exact .asked s _ startSeqNum held rfl
    · exact grows_none rfl
  | stop =>
    cases ran
    unfold World.stop
    split
    · exact grows_none rfl
    · dsimp only
      split
      · exact grows_none rfl
      · split
        · exact grows_one rfl rfl
        · exact grows_none rfl
  | startCb =>
    cases ran
    unfold World.startTxBaCb
    split
    · exact grows_none rfl
    · dsimp only
      split <;> exact grows_none rfl
  | addbaResp =>
    cases ran
    unfold World.addbaResp
    split
    · exact grows_none rfl
    · split <;> exact grows_none rfl
  | addbaStatus =>
    cases ran
    unfold World.addbaStatus
    dsimp only
    split
    · exact grows_none rfl
    · split
      · exact grows_none rfl
      · split <;> exact grows_none rfl
  | stopCb =>
    cases ran
    unfold World.stopTxBaCb
    split
    · exact grows_none rfl
    · split <;> exact grows_none rfl
  | move h =>
    cases ran
    exact .moved h rfl rfl
  | assign h =>
    cases ran
    cases h with
    | refused | operational | removed => exact grows_none rfl
  | wake h =>
    cases ran
    cases h with
    | refused | removed => exact grows_one rfl rfl
    | operational => exact grows_none rfl

theorem hold_grows (w : World) (s : Nat) (skb : Skb) : ∃ acts, (w.hold s skb).trace = w.trace ++ acts ∧ ∀ act ∈ acts, act.plain = true := by
  have one : ∀ act ∈ [Act.held s skb], act.plain = true := fun act there => by
    cases List.mem_singleton.mp there
    rfl
  unfold World.hold
  dsimp only
  split
  · exact ⟨_,rfl,one⟩
  · next oldest rest _ =>
    split
    · refine ⟨[.held s skb,.purged s oldest],List.append_assoc ..,fun act there => ?_⟩
      rcases List.mem_cons.mp there with rfl | last
      · rfl
      · exact List.mem_singleton.mp last ▸ rfl
    · exact ⟨_,rfl,one⟩

theorem path_grows (k : Nat) (fate : Fate) (p : Path) (there : w.paths[k]? = some p) (ran : w.path k fate p = some w') :
    Grows w w' (.path k fate) := by
  unfold World.path at ran
  split at ran
  · cases ran
    exact grows_none rfl
  · cases ran
    split
    · exact grows_one rfl rfl
    · exact grows_none rfl
  · cases ran
    exact grows_none rfl
  · split at ran
    · cases ran
    · cases ran
      unfold World.recheck
      split
      · exact grows_none rfl
      · next s _ =>
        split
        · exact grows_one rfl rfl
        · obtain ⟨acts,trace,plain⟩ := hold_grows (w.leave k) s p.skb.queued
          exact .plain acts trace plain
  · next flagged point =>
    split at ran
    · cases ran
      cases flagged with
      | none => exact grows_none (List.append_nil _)
      | some s =>
        refine .numbered k p s _ rfl there point ?_ rfl
        split
        · next old => exact .inl old
        · exact .inr rfl
    · cases ran
      exact grows_none rfl
    · cases ran
      exact grows_none rfl
  · cases ran
    exact grows_none rfl
  · cases ran
    split <;> exact grows_none rfl
  · cases ran
    unfold World.txFrags
    split
    · split <;> exact grows_none rfl
    · exact grows_none rfl

theorem enter_grows (ran : w.enter sec = some w') : Grows w w' e := by
  unfold World.enter at ran
  split at ran
  · cases ran
  · cases ran
    exact grows_none rfl

theorem step_grows (e : Event) (ran : step e w = some w') : Grows w w' e := by
  cases e with
  | startTxBaSession =>
    obtain ⟨_,result⟩ := Option.ite_none_left_eq_some.mp ran
    cases result
    unfold World.startTxBaSession
    split <;> exact grows_none rfl
  | stopTxBaSession =>
    obtain ⟨_,result⟩ := Option.ite_none_left_eq_some.mp ran
    cases result
    unfold World.stopTxBaSession
    split
    · exact grows_none rfl
    · dsimp only
      split <;> exact grows_none rfl
  | work | stop | startCb | stopCb | addbaResp => exact enter_grows ran
  | goOn good =>
    obtain ⟨_,held,ran⟩ := Option.bind_eq_some_iff.mp ran
    exact goOn_grows held good ran
  | xmit | deliverWakeup | stopQueue | otherSplices =>
    cases ran
    exact grows_none rfl
  | path k fate =>
    obtain ⟨p,there,ran⟩ := Option.bind_eq_some_iff.mp ran
    exact path_grows k fate p there ran
  | tasklet | otherFinishes =>
    obtain ⟨_,result⟩ := Option.ite_none_left_eq_some.mp ran
    cases result
    exact grows_none rfl
  | txPending =>
    have ran : w.txPending = some w' := ran
    unfold World.txPending at ran
    split at ran
    · cases ran
    · split at ran
      · cases ran
        exact grows_none rfl
      · cases ran
        exact grows_none rfl
  | filtered =>
    obtain ⟨_,_,rfl⟩ := Option.map_eq_some_iff.mp ran
    unfold World.handleFiltered
    split
    · exact grows_none rfl
    · split <;> exact grows_none rfl
  | deliverResponse =>
    cases ran
    unfold World.deliverResponse
    split <;> exact grows_none rfl

theorem history_append (history : History fine trace)
    (meets : ∀ pre, ∀ act ∈ acts, fine pre act) : History fine (trace ++ acts) := by
  induction acts generalizing trace with
  | nil =>
    rw [List.append_nil]
    exact history
  | cons act acts ih =>
    have longer := ih (history_snoc history (meets trace act List.mem_cons_self)) fun pre other there =>
      meets pre other (List.mem_cons_of_mem _ there)
    rw [List.append_assoc] at longer
    exact longer

theorem unnumbered_any (none : Unnumbered s w.trace) : w.trace.any (Act.numberedIn s) = false := by
  refine List.any_eq_false.mpr fun act there => ?_
  cases act with
  | numbered t skb =>
    intro same
    have equal : t = s := of_decide_eq_true same
    subst equal
    exact none skb there
  | _ => exact Bool.false_ne_true

theorem careful_first (fine : Careful w (.path k .passed)) (there : w.paths[k]? = some p) (point : p.point = .handlers (some s))
    (none : Unnumbered s w.trace) : p.skb.retransmission = false ∧ w.tidTx = some s := by
  unfold Careful careful at fine
  dsimp only at fine
  rw [there] at fine
  dsimp only at fine
  rw [point] at fine
  dsimp only at fine
  rw [unnumbered_any none,Bool.false_or,Bool.and_eq_true,Bool.not_eq_true',decide_eq_true_eq] at fine
  exact fine

theorem step_first (sequenced : Sequenced w.numbering) (fine : Careful w e) (grows : Grows w w' e) (history : History FirstNumber w.trace) :
    History FirstNumber w'.trace := by
  cases grows with
  | plain acts trace plain =>
    rw [trace]
    refine history_append history fun pre act there => ?_
    have silent := plain act there
    cases act with
    | addbaRequest | numbered => cases silent
    | _ => trivial
  | asked s token ssn held trace =>
    rw [trace]
    exact history_snoc history (sequenced.early s (.inr (.inr ⟨_,held,rfl⟩))).2.2.1
  | moved h trace =>
    rw [trace]
    exact history_snoc history trivial
  | numbered k p s skb passed there point number trace =>
    rw [trace]
    subst passed
    refine history_snoc history fun none token ssn asked => ?_
    obtain ⟨new,current⟩ := careful_first fine there point none
    rcases number with old | same
    · cases new.symm.trans old
    · rw [same]
      exact sequenced.next s token ssn asked current none

theorem careful_run (initial : start.Initial) (run : Run Careful start w) : History FirstNumber w.trace := by
  induction run with
  | refl =>
    rw [initial.trace]
    exact history_nil _
  | step prior fine ran ih => exact step_first (run_sequenced initial prior) fine (step_grows _ ran) ih

theorem moved_pending (ran : step e w = some w') (trace : w'.trace = w.trace ++ [.moved s skbs]) :
    skbs = (w.sessions s).pending ∧ w'.pending = w.pending ++ skbs := by
  have last : ∀ acts, w'.trace = w.trace ++ acts → acts = [.moved s skbs] := fun acts same => List.append_cancel_left (same.symm.trans trace)
  cases step_grows e ran with
  | plain acts same plain =>
    have moved := plain (.moved s skbs) (by rw [last acts same]; exact List.mem_cons_self)
    cases moved
  | asked t token ssn _ same | numbered k p t skb _ _ _ _ same => cases last _ same
  | moved h same pending =>
    cases last _ same
    exact ⟨rfl,pending⟩

end grows

section sample

def sampleSta : World where
  sessions := fun _ => ⟨newState,0,[]⟩
  allocated := 0
  dialogTokenAllocator := 0
  tidTx := none
  tidStartTx := none
  tidSeq := 0
  mtx := none
  paths := []
  begun := 0
  pending := []
  psTxBuf := []
  txFiltered := []
  driver := []
  tasklet := false
  aggQueueStop := 0
  others := 0
  aggregationStop := false
  otherStop := false
  trace := []

def sampleOn (n : Nat) : List Event := List.replicate n (.goOn true)
def samplePath (n : Nat) : List Event := List.replicate n (.path 0 .passed)

def sampleRequested : List Event := [.xmit] ++ samplePath 5 ++ [.startTxBaSession true true,.work] ++ sampleOn 6

def sampleAgreed : List Event :=
  [.startCb] ++ sampleOn 2 ++ [.addbaResp 1 true] ++ sampleOn 8 ++ [.tasklet,.txPending] ++ samplePath 3

def sampleNew : List Event := sampleRequested ++ [.xmit] ++ samplePath 4 ++ sampleAgreed

def sampleHeld : Skb := ⟨1,false,true,false,false,0⟩
def sampleFirst : Skb := ⟨1,true,false,false,false,0x10⟩

def sampleTrace : List Act :=
  [.addbaRequest 0 1 1,.held 0 sampleHeld,.moved 0 [sampleHeld],.flagged 0 {sampleFirst with seqCtrl := 0},.numbered 0 sampleFirst]

theorem sampleSta_initial : sampleSta.Initial := ⟨rfl,rfl,rfl,rfl,fun _ => rfl,fun _ => rfl,rfl,rfl⟩

def sampleAgain : List Event := sampleRequested ++ [.filtered 0 false,.tasklet,.txPending] ++ samplePath 4 ++ [.txPending] ++ sampleAgreed

def sampleReturned : Skb := ⟨0,false,true,true,true,0⟩
def sampleStale : Skb := ⟨0,true,false,true,true,0⟩

end sample

end Mac80211.AggHandover

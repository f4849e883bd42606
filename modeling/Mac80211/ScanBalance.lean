import Mac80211.Scan

namespace Mac80211.Scan

def World.reports (w : World) (id : Nat) : Nat := w.trace.count (.scanDone id true) + w.trace.count (.scanDone id false)

def World.held (w : World) (id : Nat) : Nat := if w.scanReq.bind Request.id = some id then 1 else 0

def World.accepted (w : World) (id : Nat) : Nat := if (w.requests[id]?.map Prod.snd) = some none then 1 else 0

section machine

theorem machine_keeps (keeps : World → Prop) (state : ∀ w next, keeps w → keeps {w with nextScanState := next})
    (tune : ∀ w chan result, keeps w → req.channels[w.scanChannelIdx]? = some chan →
      keeps {w.log (.tune req.id chan result) with scanChannelIdx := w.scanChannelIdx + 1})
    (rounds : Nat) (round : Nat → Round) (w : World) (before : keeps w) : keeps (machine hw req round rounds w).1 := by
  induction rounds generalizing round w with
  | zero => exact before
  | succ rounds ih =>
    unfold machine
    split
    · exact before
    split
    · split
      · exact before
      · exact ih _ _ (state w _ before)
    · split
      · exact before
      · rename_i chan there
        have tuned := tune w chan (round 0).hwConfig before there
        split
        · exact ih _ _ (state _ _ tuned)
        · split <;> exact state _ _ tuned
    · exact state w _ before
    · exact state w _ before
    · split
      · exact ih _ _ (state w _ before)
      · exact state w _ before
    · exact before

theorem machine_completed (rounds : Nat) (round : Nat → Round) (w : World) :
    (machine hw req round rounds w).2 = some false → req.channels.length ≤ (machine hw req round rounds w).1.scanChannelIdx := by
  induction rounds generalizing round w with
  | zero => exact fun completed => by cases completed
  | succ rounds ih =>
    unfold machine
    split
    · exact fun completed => by cases completed
    split
    · split
      · rename_i last
        exact fun _ => last
      · exact ih _ _
    · split
      · exact fun completed => by cases completed
      · split
        · exact ih _ _
        · split <;> exact fun completed => by cases completed
    · exact fun completed => by cases completed
    · exact fun completed => by cases completed
    · split
      · exact ih _ _
      · exact fun completed => by cases completed
    · exact fun completed => by cases completed

-- Two rounds for each channel that is left, one to see that none is, one before for a resumed scan.
def cost (req : Request) (w : World) : Nat :=
  let left := req.channels.length - w.scanChannelIdx
  match w.nextScanState with
  | .decision => 2 * left + 1
  | .setChannel => max 1 (2 * left)
  | .resume => max 1 (2 * left) + 1
  | _ => 1

theorem machine_steady (covered : cost req w ≤ rounds) (round : Nat → Round) :
    machine hw req round (rounds + 1) w = machine hw req round rounds w := by
  induction rounds generalizing w round with
  | zero =>
    unfold cost at covered
    dsimp only at covered
    split at covered <;> omega
  | succ rounds ih =>
    unfold cost at covered
    conv_lhs => rw [machine]
    conv_rhs => rw [machine]
    dsimp only
    split
    · rfl
    cases state : w.nextScanState with
    | decision =>
      rw [state] at covered
      dsimp only at covered ⊢
      split
      · rfl
      refine ih ?_ _
      unfold cost scanStateDecision
      dsimp only
      split_ifs <;> dsimp only <;> omega
    | setChannel =>
      rw [state] at covered
      dsimp only at covered ⊢
      split
      · rfl
      rename_i there
      have inside := (List.getElem?_eq_some_iff.mp there).1
      split
      · refine ih ?_ _
        unfold cost World.log
        dsimp only
        omega
      · rfl
    | resume =>
      rw [state] at covered
      dsimp only at covered ⊢
      split
      · refine ih ?_ _
        unfold cost
        dsimp only
        omega
      · rfl
    | sendProbe | suspend | abort => rfl

-- A round that goes on lowers the cost, and `enough` is not below it.
theorem machine_enough (hw : Hw) (req : Request) (round : Nat → Round) (more : Nat) (w : World) :
    machine hw req round (enough req w + more) w = machine hw req round (enough req w) w := by
  have covered : cost req w ≤ enough req w := by
    unfold cost enough
    dsimp only
    split <;> omega
  induction more with
  | zero => rfl
  | succ more ih => exact (machine_steady (Nat.le_add_right_of_le covered) round).trans ih

end machine

section balance
variable {hw : Hw} {w : World} {req : Request} {id : Nat}

def Call.silent (call : Call) : Prop := ∀ id aborted, call ≠ .scanDone id aborted

theorem log_reports (silent : call.silent) : (w.log call).reports id = w.reports id := by
  unfold World.reports World.log
  rw [List.count_append,List.count_append,List.count_singleton,List.count_singleton,if_neg,if_neg]
  · rfl
  · rw [beq_iff_eq]
    exact silent id false
  · rw [beq_iff_eq]
    exact silent id true

theorem finish_reports (aborted : Bool) : (finish w req aborted).reports id = w.reports id + if req.id = some id then 1 else 0 := by
  unfold World.reports finish
  rw [List.count_append,List.count_append]
  cases req.id with
  | none => rfl
  | some own =>
    by_cases same : own = id
    · rw [same]
      cases aborted <;> simp <;> omega
    · simp [same]

def World.balance (w : World) (id : Nat) : Nat := w.reports id + w.held id

theorem finish_balance (there : w.scanReq = some req) (aborted : Bool) (v : World) (same : v.reports id = w.reports id) :
    (finish v req aborted).balance id = w.balance id := by
  unfold World.balance World.held
  rw [finish_reports,there,same]
  rfl

theorem prepHwScan_keeps (w : World) (req : Request) : (prepHwScan hw w req).1.scanReq = w.scanReq ∧ (prepHwScan hw w req).1.trace = w.trace ∧
    (prepHwScan hw w req).1.scanning = w.scanning ∧ (prepHwScan hw w req).1.requests = w.requests := by
  unfold prepHwScan
  split
  · exact ⟨rfl,rfl,rfl,rfl⟩
  · split
    · exact ⟨rfl,rfl,rfl,rfl⟩
    · split <;> exact ⟨rfl,rfl,rfl,rfl⟩

theorem scanCompleted_balance (aborted : Bool) (answer : Option Errno) : (scanCompleted hw w aborted answer).balance id = w.balance id := by
  unfold scanCompleted
  cases there : w.scanReq with
  | none => rfl
  | some req =>
    obtain ⟨scanReq,trace,_⟩ := @prepHwScan_keeps hw w req
    dsimp only
    have same : (prepHwScan hw w req).1.reports id = w.reports id := by
      unfold World.reports
      rw [trace]
    split
    · split
      · split
        · unfold World.balance
          rw [log_reports fun _ _ => Call.noConfusion,same]
          unfold World.held World.log
          rw [scanReq]
        · exact finish_balance there _ _ ((log_reports fun _ _ => Call.noConfusion).trans same)
      · exact finish_balance there _ _ same
    · exact finish_balance there _ _ rfl

theorem machine_balance (rounds : Nat) (round : Nat → Round) : (machine hw req round rounds w).1.balance id = w.balance id := by
  refine machine_keeps (fun v => v.balance id = w.balance id) (fun v _ kept => kept) (fun v chan result kept _ => ?_) rounds round w rfl
  refine Eq.trans ?_ kept
  exact congrArg (· + _) (@log_reports v _ (.tune req.id chan result) fun _ _ => Call.noConfusion)

theorem scanCancel_balance : (scanCancel hw w).balance id = w.balance id := by
  unfold scanCancel
  cases there : w.scanReq with
  | none => rfl
  | some req =>
    dsimp only
    have logged : (w.log (.cancelled req.id)).balance id = w.balance id :=
      congrArg (· + _) (log_reports fun _ _ => Call.noConfusion)
    split
    · exact logged
    · split
      · exact logged
      · rw [scanCompleted_balance]
        exact logged

theorem prepareHwScan_keeps (w : World) (sdata : Nat) (req : Request) : (prepareHwScan hw w sdata req).scanReq = some req ∧
    (prepareHwScan hw w sdata req).trace = w.trace ∧ (prepareHwScan hw w sdata req).scanning = {w.scanning with hwScanning := true} ∧
    (prepareHwScan hw w sdata req).requests = w.requests :=
  prepHwScan_keeps ..

theorem startScan_balance (idle : w.scanReq = none) (sdata : Nat) (req : Request) (answers : StartAnswers) :
    (startScan hw w sdata req answers).1.reports id = w.reports id ∧ (startScan hw w sdata req answers).1.requests = w.requests ∧
      (startScan hw w sdata req answers).1.scanReq = if (startScan hw w sdata req answers).2 = none then some req else none := by
  unfold startScan
  split
  · exact ⟨rfl,rfl,idle⟩
  split
  · exact ⟨rfl,rfl,rfl⟩
  split
  · split
    · exact ⟨rfl,rfl,idle⟩
    obtain ⟨scanReq,trace,_,requests⟩ := @prepareHwScan_keeps hw w sdata req
    have same : (prepareHwScan hw w sdata req).reports id = w.reports id := by
      unfold World.reports
      rw [trace]
    have logged := (@log_reports _ _ (.hwScan req.id ((prepareHwScan hw w sdata req).hwScanReq.getD []) answers.drvHwScan)
      fun _ _ => Call.noConfusion).trans same
    split
    · exact ⟨logged,requests,scanReq⟩
    · exact ⟨logged,requests,rfl⟩
  · split
    · exact ⟨log_reports fun _ _ => Call.noConfusion,rfl,rfl⟩
    · split <;> exact ⟨rfl,rfl,rfl⟩

theorem scanWork_balance (answers : WorkAnswers) : (scanWork hw w answers).balance id = w.balance id := by
  unfold scanWork
  split
  · exact scanCompleted_balance ..
  split
  · rw [scanCompleted_balance]
    rfl
  split
  · rw [scanCompleted_balance]
    rfl
  split
  · rename_i sdata req _ there
    split
    · -- The request is taken out and put back, whether it starts or not.
      obtain ⟨reports,_,scanReq⟩ := @startScan_balance hw {w with scanReq := none,scanSdata := none} id rfl sdata req answers.start
      split
      · rename_i v started
        rw [started] at reports scanReq
        unfold World.balance World.held
        rw [reports,scanReq,there]
        rfl
      · rename_i v err failed
        rw [failed] at reports
        rw [scanCompleted_balance]
        unfold World.balance World.held
        rw [there]
        exact congrArg (· + _) reports
    · have kept := @machine_balance hw w req id (enough req w) answers.round
      split
      · rename_i v ran
        rwa [ran] at kept
      · rename_i v aborted ran
        rw [ran] at kept
        rw [scanCompleted_balance]
        exact kept
  · rfl

theorem scanCompleted_requests (aborted : Bool) (answer : Option Errno) : (scanCompleted hw w aborted answer).requests = w.requests := by
  unfold scanCompleted
  cases w.scanReq with
  | none => rfl
  | some req =>
    dsimp only
    split
    · split
      · split <;> exact (prepHwScan_keeps w req).2.2.2
      · exact (prepHwScan_keeps w req).2.2.2
    · rfl

theorem scanCancel_requests : (scanCancel hw w).requests = w.requests := by
  unfold scanCancel
  cases w.scanReq with
  | none => rfl
  | some =>
    dsimp only
    split
    · rfl
    · split
      · rfl
      · exact scanCompleted_requests ..

theorem scanWork_requests (answers : WorkAnswers) : (scanWork hw w answers).requests = w.requests := by
  unfold scanWork
  split
  · exact scanCompleted_requests ..
  split
  · exact scanCompleted_requests ..
  split
  · exact scanCompleted_requests ..
  split
  · rename_i sdata req _ there
    split
    · obtain ⟨_,requests,_⟩ := @startScan_balance hw {w with scanReq := none,scanSdata := none} 0 rfl sdata req answers.start
      split
      · rename_i v started
        rwa [started] at requests
      · rename_i v err failed
        rw [failed] at requests
        exact (scanCompleted_requests ..).trans requests
    · have kept : (machine hw req answers.round (enough req w) w).1.requests = w.requests :=
        machine_keeps (fun v => v.requests = w.requests) (fun _ _ kept => kept) (fun _ _ _ kept _ => kept) _ _ w rfl
      split
      · rename_i v ran
        rwa [ran] at kept
      · rename_i v aborted ran
        rw [ran] at kept
        exact (scanCompleted_requests ..).trans kept
  · rfl

theorem accepted_append (w : World) (req : Request) (res : Option Errno) (id : Nat) :
    ({w with requests := w.requests ++ [(req,res)]} : World).accepted id =
      w.accepted id + if id = w.requests.length ∧ res = none then 1 else 0 := by
  unfold World.accepted
  by_cases inside : id < w.requests.length
  · rw [List.getElem?_append_left inside,if_neg fun both : id = w.requests.length ∧ res = none => absurd both.1 (by omega)]
    rfl
  · rw [List.getElem?_append_right (by omega),List.getElem?_eq_none (l := w.requests) (by omega)]
    by_cases last : id = w.requests.length
    · rw [last,Nat.sub_self]
      cases res <;> simp
    · rw [List.getElem?_eq_none (by rw [List.length_singleton]; omega)]
      simp [last]

def Accounted (w : World) : Prop := ∀ id, w.balance id = w.accepted id

theorem requestScan_accounted (accounted : Accounted w) (sdata : Nat) (req : Request) (answers : StartAnswers) :
    Accounted (requestScan hw w sdata req answers).1 := by
  intro id
  unfold requestScan
  generalize same : {req with id := some w.requests.length} = asked
  have own : asked.id = some w.requests.length := by
    rw [← same]
  dsimp only
  have before := accounted id
  cases there : w.scanReq with
  | some =>
    have busy : startScan hw w sdata asked answers = (w,some .busy) := by
      unfold startScan
      rw [there]
      rfl
    rw [busy]
    refine Eq.trans ?_ (accepted_append w asked (some .busy) id).symm
    rw [if_neg fun both => (by cases both.2)]
    exact before
  | none =>
    obtain ⟨reports,requests,scanReq⟩ := @startScan_balance hw _ id there sdata asked answers
    generalize startScan hw w sdata asked answers = out at reports requests scanReq
    obtain ⟨v,res⟩ := out
    have accepted : ({v with requests := v.requests ++ [(asked,res)]} : World).accepted id =
        w.accepted id + if id = w.requests.length ∧ res = none then 1 else 0 := by
      rw [accepted_append,requests]
      unfold World.accepted
      rw [requests]
    rw [← requests] at accepted
    rw [accepted,← before]
    unfold World.balance World.held
    have reports : ({v with requests := v.requests ++ [(asked,res)]} : World).reports id = w.reports id := reports
    rw [reports,there,scanReq]
    cases res with
    | none =>
      rw [if_pos rfl,Option.bind_some,own,requests]
      simp [eq_comm]
    | some => simp

theorem requestIbssScan_accounted (accounted : Accounted w) (sdata : Nat) (channels : Option (List Channel)) (answers : StartAnswers) :
    Accounted (requestIbssScan hw w sdata channels answers).1 := by
  intro id
  unfold requestIbssScan
  split
  · exact accounted id
  rename_i idle
  dsimp only
  split
  · rename_i nonempty
    have idle := Option.not_isSome_iff_eq_none.mp idle
    obtain ⟨reports,requests,scanReq⟩ := @startScan_balance hw _ id idle sdata ⟨none,_,1,false,nonempty⟩ answers
    have before := accounted id
    unfold World.balance World.held World.accepted at before ⊢
    rw [reports,requests,scanReq,← before,idle]
    split <;> rfl
  · exact accounted id

theorem step_accounted (accounted : Accounted w) (e : Event) : Accounted (step hw w e) := by
  have kept : ∀ v : World, v.requests = w.requests → (∀ id, v.balance id = w.balance id) → Accounted v := by
    intro v requests balance id
    rw [balance id,accounted id]
    unfold World.accepted
    rw [requests]
  cases e with
  | scan sdata req answers => exact requestScan_accounted accounted sdata req answers
  | ibssScan sdata channels answers => exact requestIbssScan_accounted accounted sdata channels answers
  | cancel => exact kept _ scanCancel_requests fun _ => scanCancel_balance
  | completed => exact kept _ rfl fun _ => rfl
  | work answers => exact kept _ (scanWork_requests answers) fun _ => scanWork_balance answers

theorem run_accounted (accounted : Accounted w) (events : List Event) : Accounted (run hw w events) := by
  induction events generalizing w with
  | nil => exact accounted
  | cons e rest ih => exact ih (step_accounted accounted e)

end balance

end Mac80211.Scan

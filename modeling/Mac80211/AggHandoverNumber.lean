import Mac80211.AggHandoverKept

namespace Mac80211.AggHandover

def Section.starts : Section → Option Nat
  | .clearWantStart s => some s
  | .startSync s _ => some s
  | .startSeq s => some s
  | .startDrv s _ => some s
  | .addbaRequest s _ => some s
  | _ => none

def Section.Waits (s : Nat) : Section → Prop
  | .clearWantStart t => t = s
  | .startSync t _ => t = s
  | _ => False

def Point.flagged : Point → Option Nat
  | .handlers flagged => flagged
  | .nextSeq flagged => flagged
  | _ => none

def Point.Within (s : Nat) : Point → Prop
  | .operational t => t = s
  | .wantStart t => t = s
  | .handlers flagged => flagged = some s
  | .nextSeq flagged => flagged = some s
  | _ => True

structure Numbering where
  tidTx : Option Nat
  tidStartTx : Option Nat
  allocated : Nat
  mtx : Option Section
  operational : Nat → Bool
  wantStart : Nat → Bool
  paths : List Path
  begun : Nat
  tidSeq : UInt16
  trace : List Act

def World.numbering (w : World) : Numbering where
  tidTx := w.tidTx
  tidStartTx := w.tidStartTx
  allocated := w.allocated
  mtx := w.mtx
  operational := fun s => (w.sessions s).state.operational
  wantStart := fun s => (w.sessions s).state.wantStart
  paths := w.paths
  begun := w.begun
  tidSeq := w.tidSeq
  trace := w.trace

def Numbering.Early (n : Numbering) (s : Nat) : Prop :=
  n.allocated ≤ s ∨ n.tidStartTx = some s ∨ ∃ sec, n.mtx = some sec ∧ sec.starts = some s

def Unnumbered (s : Nat) (trace : List Act) : Prop := ∀ skb, .numbered s skb ∉ trace

-- Until the request is out no path is past the look-up, so tid_seq stands still and nothing is numbered.
structure Sequenced (n : Numbering) : Prop where
  ids : ∀ p ∈ n.paths, p.id < n.begun
  grace : ∀ s before, n.mtx = some (.startSync s before) → before ≤ n.begun ∧ ∀ p ∈ n.paths, before ≤ p.id → p.point.Within s
  within : ∀ s, n.tidTx = some s → (∀ sec, n.mtx = some sec → ¬sec.Waits s) → ∀ p ∈ n.paths, p.point.Within s
  early : ∀ s, n.Early s → n.operational s = false ∧ (∀ p ∈ n.paths, p.point.flagged ≠ some s) ∧ Unnumbered s n.trace ∧
    ∀ token ssn, .addbaRequest s token ssn ∉ n.trace
  counted : ∀ p ∈ n.paths, ∀ s, p.point = .nextSeq (some s) → ∃ skb, .numbered s skb ∈ n.trace
  read : ∀ sec s ssn, n.mtx = some sec → sec = .startDrv s ssn ∨ sec = .addbaRequest s ssn → n.tidSeq >>> 4 = ssn
  next : ∀ s token ssn, .addbaRequest s token ssn ∈ n.trace → n.tidTx = some s → Unnumbered s n.trace → n.tidSeq >>> 4 = ssn

structure Numbering.Started (n : Numbering) : Prop where
  one : n.tidTx = none ∨ n.tidStartTx = none
  live : ∀ s, n.tidTx = some s → s < n.allocated
  asked : ∀ s, n.tidStartTx = some s → s < n.allocated
  setUp : ∀ sec s, n.mtx = some sec → sec.starts = some s → n.tidTx = some s
  want : ∀ s, n.tidTx = some s → n.wantStart s = true → n.mtx = some (.clearWantStart s)

theorem kept_started {w : World} (kept : Kept w.ledger) : w.numbering.Started := {kept with
  setUp := fun sec s held starts => by
    have known := kept.knows sec held
    cases sec with
    | clearWantStart | startSync | startSeq | startDrv | addbaRequest =>
      cases starts
      exact known
    | _ => cases starts}

def Goes (n : Numbering) : Point → Point → Prop
  | .prepare,q => n.tidTx = none ∧ q = .handlers none ∨ ∃ s, n.tidTx = some s ∧ q = .operational s
  | .operational s,q => n.operational s = true ∧ q = .handlers (some s) ∨ q = .wantStart s
  | .wantStart s,q => n.wantStart s = true ∧ q = .handlers none ∨ q = .recheck
  | .recheck,q => n.tidTx = none ∧ q = .handlers none ∨ ∃ s, n.tidTx = some s ∧ n.operational s = true ∧ q = .handlers (some s)
  | .handlers flagged,q => q = .nextSeq flagged ∨ q = .frags
  | .nextSeq _,q => q = .encrypt
  | .encrypt,q => q = .frags
  | .frags,_ => False

def Act.numbers : Act → Bool
  | .addbaRequest .. => true
  | .numbered .. => true
  | _ => false

section numbering
variable {n : Numbering} {sec : Section}

theorem goes_within (current : n.tidTx = some s) (off : n.wantStart s = false) (within : p.Within s) (goes : Goes n p q) : q.Within s := by
  cases p with
  | prepare =>
    rcases goes with ⟨idle,_⟩ | ⟨t,loaded,rfl⟩
    · cases idle.symm.trans current
    · exact Option.some.inj (loaded.symm.trans current)
  | operational =>
    rcases goes with ⟨_,rfl⟩ | rfl
    · exact congrArg some within
    · exact within
  | wantStart =>
    cases within
    rcases goes with ⟨started,_⟩ | rfl
    · cases off.symm.trans started
    · trivial
  | recheck =>
    rcases goes with ⟨idle,_⟩ | ⟨t,loaded,_,rfl⟩
    · cases idle.symm.trans current
    · exact loaded.symm.trans current
  | handlers =>
    rcases goes with rfl | rfl
    · exact within
    · trivial
  | nextSeq | encrypt =>
    cases goes
    trivial
  | frags => cases goes

theorem goes_flagged (goes : Goes n p q) (flagged : q.flagged = some s) : p.flagged = some s ∨ n.operational s = true := by
  cases p with
  | prepare =>
    rcases goes with ⟨_,rfl⟩ | ⟨t,_,rfl⟩ <;> cases flagged
  | operational =>
    rcases goes with ⟨on,rfl⟩ | rfl
    · cases flagged
      exact .inr on
    · cases flagged
  | wantStart =>
    rcases goes with ⟨_,rfl⟩ | rfl <;> cases flagged
  | recheck =>
    rcases goes with ⟨_,rfl⟩ | ⟨t,_,on,rfl⟩
    · cases flagged
    · cases flagged
      exact .inr on
  | handlers =>
    rcases goes with rfl | rfl
    · exact .inl flagged
    · cases flagged
  | nextSeq | encrypt =>
    cases goes
    cases flagged
  | frags => cases goes

theorem waits_starts (waits : sec.Waits s) : sec.starts = some s := by
  cases sec with
  | clearWantStart | startSync => exact congrArg some waits
  | _ => cases waits

theorem clear_off (started : n.Started) (current : n.tidTx = some s) (clear : ∀ sec, n.mtx = some sec → ¬sec.Waits s) :
    n.wantStart s = false := by
  cases want : n.wantStart s with
  | false => rfl
  | true => exact (clear _ (started.want s current want) rfl).elim

theorem asked_within (sequenced : Sequenced n) (current : n.tidTx = some s) (asked : .addbaRequest s token ssn ∈ n.trace) :
    ∀ p ∈ n.paths, p.point.Within s :=
  sequenced.within s current fun sec held waits =>
    (sequenced.early s (.inr (.inr ⟨sec,held,waits_starts waits⟩))).2.2.2 token ssn asked

theorem setting_within (started : n.Started) (sequenced : Sequenced n) (held : n.mtx = some sec) (starts : sec.starts = some s)
    (clear : ¬sec.Waits s) : ∀ p ∈ n.paths, p.point.Within s :=
  sequenced.within s (started.setUp sec s held starts) fun other same => by
    cases held.symm.trans same
    exact clear

theorem unnumbered_left (none : Unnumbered s (n.trace ++ acts)) : Unnumbered s n.trace :=
  fun skb there => none skb (List.mem_append_left _ there)

theorem path_sequenced (paths : List Path) (acts : List Act) (seq : UInt16) (started : n.Started) (sequenced : Sequenced n)
    (there : path ∈ n.paths) (moves : ∀ q ∈ paths, q ∈ n.paths ∨ q.id = path.id ∧ Goes n path.point q.point)
    (quiet : ∀ s token ssn, .addbaRequest s token ssn ∉ acts)
    (numbered : ∀ s skb, .numbered s skb ∈ acts → path.point = .handlers (some s))
    (counts : ∀ q ∈ paths, ∀ s, q.point = .nextSeq (some s) → q ∈ n.paths ∨ ∃ skb, .numbered s skb ∈ acts)
    (written : seq = n.tidSeq ∨ ∃ flagged, path.point = .nextSeq flagged) :
    Sequenced {n with paths := paths,trace := n.trace ++ acts,tidSeq := seq} where
  ids := fun q present => by
    rcases moves q present with old | ⟨same,_⟩
    · exact sequenced.ids q old
    · rw [same]
      exact sequenced.ids path there
  grace := fun s before held => by
    obtain ⟨bound,older⟩ := sequenced.grace s before held
    have current : n.tidTx = some s := started.setUp _ s held rfl
    have off : n.wantStart s = false := by
      cases want : n.wantStart s with
      | false => rfl
      | true => cases held.symm.trans (started.want s current want)
    refine ⟨bound,fun q present young => ?_⟩
    rcases moves q present with old | ⟨same,goes⟩
    · exact older q old young
    · exact goes_within current off (older path there (same ▸ young)) goes
  within := fun s current clear q present => by
    have before := sequenced.within s current clear
    rcases moves q present with old | ⟨_,goes⟩
    · exact before q old
    · have off : n.wantStart s = false := clear_off started current clear
      exact goes_within current off (before path there) goes
  early := fun s early => by
    obtain ⟨off,unflagged,unnumbered,unasked⟩ := sequenced.early s early
    refine ⟨off,fun q present flagged => ?_,fun skb present => ?_,fun token ssn present => ?_⟩
    · rcases moves q present with old | ⟨_,goes⟩
      · exact unflagged q old flagged
      · rcases goes_flagged goes flagged with before | on
        · exact unflagged path there before
        · cases off.symm.trans on
    · rcases List.mem_append.mp present with old | now
      · exact unnumbered skb old
      · exact unflagged path there (congrArg Point.flagged (numbered s skb now))
    · rcases List.mem_append.mp present with old | now
      · exact unasked token ssn old
      · exact quiet s token ssn now
  counted := fun q present s numbering => by
    rcases counts q present s numbering with old | ⟨skb,now⟩
    · obtain ⟨skb,before⟩ := sequenced.counted q old s numbering
      exact ⟨skb,List.mem_append_left _ before⟩
    · exact ⟨skb,List.mem_append_right _ now⟩
  read := fun sec s ssn held reads => by
    rcases written with same | ⟨flagged,point⟩
    · subst same
      exact sequenced.read sec s ssn held reads
    -- Only a flagged path could write, and there is none before the session is set up.
    have starts : sec.starts = some s := by
      rcases reads with rfl | rfl
      · rfl
      · rfl
    have clear : ¬sec.Waits s := by
      rcases reads with rfl | rfl
      · exact id
      · exact id
    have within := setting_within started sequenced held starts clear path there
    rw [point] at within
    have flag : path.point.flagged = some s := by
      rw [point]
      exact within
    exact ((sequenced.early s (.inr (.inr ⟨sec,held,starts⟩))).2.1 path there flag).elim
  next := fun s token ssn present current none => by
    have asked : .addbaRequest s token ssn ∈ n.trace := by
      rcases List.mem_append.mp present with old | now
      · exact old
      · exact (quiet s token ssn now).elim
    rcases written with same | ⟨flagged,point⟩
    · subst same
      exact sequenced.next s token ssn asked current (unnumbered_left none)
    · have within := asked_within sequenced current asked path there
      rw [point] at within
      have same : flagged = some s := within
      obtain ⟨skb,before⟩ := sequenced.counted path there s (point.trans (congrArg Point.nextSeq same))
      exact (none skb (List.mem_append_left _ before)).elim

theorem begun_sequenced (sequenced : Sequenced n) (id : path.id = n.begun) (point : path.point = .prepare ∨ path.point = .frags) :
    Sequenced {n with paths := n.paths ++ [path],begun := n.begun + 1} := by
  have fresh : ∀ s, path.point.Within s := fun s => by
    rcases point with same | same
    · rw [same]
      trivial
    · rw [same]
      trivial
  have plain : path.point.flagged = none := by
    rcases point with same | same
    · rw [same]
      rfl
    · rw [same]
      rfl
  have split : ∀ q ∈ n.paths ++ [path], q ∈ n.paths ∨ q = path := fun q present => by
    rcases List.mem_append.mp present with old | new
    · exact .inl old
    · exact .inr (List.mem_singleton.mp new)
  exact {sequenced with
    ids := fun q present => by
      rcases split q present with old | rfl
      · exact Nat.lt_succ_of_lt (sequenced.ids q old)
      · rw [id]
        exact Nat.lt_succ_self _
    grace := fun s before held => by
      obtain ⟨bound,older⟩ := sequenced.grace s before held
      refine ⟨Nat.le_succ_of_le bound,fun q present young => ?_⟩
      rcases split q present with old | rfl
      · exact older q old young
      · exact fresh s
    within := fun s current clear q present => by
      rcases split q present with old | rfl
      · exact sequenced.within s current clear q old
      · exact fresh s
    early := fun s early => by
      obtain ⟨off,unflagged,rest⟩ := sequenced.early s early
      refine ⟨off,fun q present flagged => ?_,rest⟩
      rcases split q present with old | rfl
      · exact unflagged q old flagged
      · cases plain.symm.trans flagged
    counted := fun q present s numbering => by
      rcases split q present with old | rfl
      · exact sequenced.counted q old s numbering
      · rw [numbering] at plain
        cases plain}

theorem held_sequenced (sequenced : Sequenced n)
    (synced : ∀ s sec, n.mtx = some sec → sec.Waits s → ∀ p ∈ n.paths, p.point.Within s)
    (apart : ∀ s before, mtx ≠ some (.startSync s before))
    (starts : ∀ sec s, mtx = some sec → sec.starts = some s → ∃ old, n.mtx = some old ∧ old.starts = some s)
    (read : ∀ sec s ssn, mtx = some sec → sec = .startDrv s ssn ∨ sec = .addbaRequest s ssn → n.tidSeq >>> 4 = ssn) :
    Sequenced {n with mtx := mtx} := {sequenced with
  grace := fun s before held => (apart s before held).elim
  within := fun s current _ => by
    by_cases waits : ∃ sec, n.mtx = some sec ∧ sec.Waits s
    · obtain ⟨sec,held,waiting⟩ := waits
      exact synced s sec held waiting
    · exact sequenced.within s current fun sec held waiting => waits ⟨sec,held,waiting⟩
  early := fun s early => by
    refine sequenced.early s ?_
    rcases early with fresh | asked | ⟨sec,held,setting⟩
    · exact .inl fresh
    · exact .inr (.inl asked)
    · exact .inr (.inr (starts sec s held setting))
  read := read}

def Section.plain : Section → Bool
  | .startSync .. => false
  | sec => sec.starts.isNone

theorem plain_starts (plain : sec.plain = true) : sec.starts = none := by
  cases sec with
  | startSync | clearWantStart | startSeq | startDrv | addbaRequest => cases plain
  | _ => rfl

theorem plain_sequenced (sequenced : Sequenced n) (apart : ∀ s sec, n.mtx = some sec → ¬sec.Waits s)
    (plain : ∀ sec, mtx = some sec → sec.plain = true) : Sequenced {n with mtx := mtx} := by
  refine held_sequenced sequenced (fun s sec held waits => (apart s sec held waits).elim) (fun s before held => ?_)
    (fun sec s held setting => ?_) fun sec s ssn held reads => ?_
  · cases plain _ held
  · cases (plain_starts (plain sec held)).symm.trans setting
  · rcases reads with rfl | rfl <;> cases plain _ held

theorem operational_sequenced (sequenced : Sequenced n) (off : ∀ s, n.Early s → operational s = false) :
    Sequenced {n with operational := operational} := {sequenced with
  early := fun s early => ⟨off s early,(sequenced.early s early).2⟩}

theorem trace_sequenced (sequenced : Sequenced n) (quiet : ∀ act ∈ acts, act.numbers = false) :
    Sequenced {n with trace := n.trace ++ acts} := by
  have split : ∀ act ∈ n.trace ++ acts, act.numbers = true → act ∈ n.trace := fun act present numbers => by
    rcases List.mem_append.mp present with old | now
    · exact old
    · cases (quiet act now).symm.trans numbers
  exact {sequenced with
    early := fun s early => by
      obtain ⟨off,unflagged,unnumbered,unasked⟩ := sequenced.early s early
      refine ⟨off,unflagged,fun skb present => ?_,fun token ssn present => ?_⟩
      · exact unnumbered skb (split _ present rfl)
      · exact unasked token ssn (split _ present rfl)
    counted := fun q present s numbering => by
      obtain ⟨skb,before⟩ := sequenced.counted q present s numbering
      exact ⟨skb,List.mem_append_left _ before⟩
    next := fun s token ssn present current none => sequenced.next s token ssn (split _ present rfl) current (unnumbered_left none)}

theorem over_sequenced (sequenced : Sequenced n) : Sequenced {n with tidTx := none} := {sequenced with
  within := fun s current => by cases current
  next := fun s token ssn _ current => by cases current}

theorem asked_sequenced (sequenced : Sequenced n) (idle : n.tidTx = none)
    (off : ∀ s, n.Early s → operational s = false) :
    Sequenced {n with
      tidStartTx := some n.allocated,
      allocated := n.allocated + 1,
      operational := operational,
      wantStart := wantStart} := {sequenced with
  within := fun s current => by cases idle.symm.trans current
  early := fun s early => by
    have before : n.Early s := by
      rcases early with fresh | asked | setting
      · exact .inl (Nat.le_of_succ_le fresh)
      · exact .inl (Option.some.inj asked).le
      · exact .inr (.inr setting)
    exact ⟨off s before,(sequenced.early s before).2⟩
  next := fun s _ _ _ current => by cases idle.symm.trans current}

theorem launched_sequenced (sequenced : Sequenced n) (asked : n.tidStartTx = some s) :
    Sequenced {n with tidTx := some s,tidStartTx := none,mtx := some (.clearWantStart s)} := {sequenced with
  grace := fun t before held => by cases held
  within := fun t current clear => by
    cases current
    exact (clear _ rfl rfl).elim
  early := fun t early => by
    refine sequenced.early t ?_
    rcases early with fresh | none | ⟨sec,held,setting⟩
    · exact .inl fresh
    · cases none
    · cases held
      exact .inr (.inl (asked.trans setting))
  read := fun sec t ssn held reads => by
    cases held
    rcases reads with same | same
    · cases same
    · cases same
  next := fun t token ssn present current => by
    cases current
    exact ((sequenced.early s (.inr (.inl asked))).2.2.2 token ssn present).elim}

theorem cleared_sequenced (started : n.Started) (sequenced : Sequenced n)
    (held : n.mtx = some (.clearWantStart s)) (off : ∀ t, n.Early t → operational t = false) :
    Sequenced {n with operational := operational,wantStart := wantStart,mtx := some (.startSync s n.begun)} := {sequenced with
  grace := fun t before same => by
    cases same
    exact ⟨le_refl _,fun p present young => absurd (sequenced.ids p present) (not_lt_of_ge young)⟩
  within := fun t current clear => by
    have same : s = t := Option.some.inj ((started.setUp _ s held rfl).symm.trans current)
    exact (clear _ rfl same).elim
  early := fun t early => by
    have before : n.Early t := by
      rcases early with fresh | asked | ⟨sec,now,setting⟩
      · exact .inl fresh
      · exact .inr (.inl asked)
      · cases now
        exact .inr (.inr ⟨_,held,setting⟩)
    exact ⟨off t before,(sequenced.early t before).2⟩
  read := fun sec t ssn now reads => by
    cases now
    rcases reads with same | same
    · cases same
    · cases same}

theorem current_late (started : n.Started) (current : n.tidTx = some s) (plain : ∀ sec, n.mtx = some sec → sec.starts = none) : ¬n.Early s := by
  rintro (fresh | asked | ⟨sec,held,setting⟩)
  · exact absurd (started.live s current) (not_lt_of_ge fresh)
  · rcases started.one with none | none
    · cases none.symm.trans current
    · cases none.symm.trans asked
  · cases (plain sec held).symm.trans setting

theorem requested_sequenced (started : n.Started) (sequenced : Sequenced n)
    (held : n.mtx = some (.addbaRequest s ssn)) :
    Sequenced {n with trace := n.trace ++ [.addbaRequest s token ssn],mtx := none} := by
  have current := started.setUp _ s held rfl
  have split : ∀ act ∈ n.trace ++ [Act.addbaRequest s token ssn], act ∈ n.trace ∨ act = .addbaRequest s token ssn := fun act present => by
    rcases List.mem_append.mp present with old | now
    · exact .inl old
    · exact .inr (List.mem_singleton.mp now)
  exact {
    ids := sequenced.ids
    grace := fun t before none => by cases none
    within := fun t now _ => by
      have same : t = s := Option.some.inj (now.symm.trans current)
      subst same
      have within : ∀ p ∈ n.paths, p.point.Within t := setting_within started sequenced held rfl id
      exact within
    early := fun t early => by
      have before : n.Early t := by
        rcases early with fresh | asked | ⟨sec,none,_⟩
        · exact .inl fresh
        · exact .inr (.inl asked)
        · cases none
      obtain ⟨off,unflagged,unnumbered,unasked⟩ := sequenced.early t before
      refine ⟨off,unflagged,fun skb present => ?_,fun other first present => ?_⟩
      · rcases split _ present with old | now
        · exact unnumbered skb old
        · cases now
      rcases split _ present with old | now
      · exact unasked other first old
      cases now
      refine current_late (n := {n with mtx := none}) ⟨started.one,started.live,started.asked,?_,?_⟩ current ?_ early
      · intro sec t none
        cases none
      · intro t now want
        have same : t = s := Option.some.inj (now.symm.trans current)
        cases held.symm.trans (started.want t now want)
      · intro sec none
        cases none
    counted := fun q present t numbering => by
      obtain ⟨skb,before⟩ := sequenced.counted q present t numbering
      exact ⟨skb,List.mem_append_left _ before⟩
    read := fun sec t first none => by cases none
    next := fun t other first present now none => by
      rcases split _ present with old | new
      · exact sequenced.next t other first old now (unnumbered_left none)
      · cases new
        exact sequenced.read _ s ssn held (.inr rfl)}

end numbering

end Mac80211.AggHandover

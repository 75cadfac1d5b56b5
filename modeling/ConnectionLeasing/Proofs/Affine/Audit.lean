import ConnectionLeasing.Proofs.Affine.Passage
import ConnectionLeasing.Proofs.Affine.Tally

/-!
# The books of a manager

The ledger of a manager with what can be seen of its run from outside: the results of the callers,
the answers of the connections, the verdicts of the inspections and the reports of the sweeps.

* `Recorded`: a run with the reports of its scheduled sweeps, which no caller gets. Every run has
  such a record (`Reachable.recorded`).
* `System.Booked`: the ledger agrees with what was seen, up to what waiting operations have still to
  book. `Booked.moved` keeps it, by the tally of the move.
* `books_agree`: whenever nothing is in progress, the metrics are the counts.

Operations may move while others wait as they like.
-/

namespace ConnectionLeasing.Affine

namespace Event

/-- A borrow is served. -/
def isServed : Event → Bool
  | returned (.borrow _) (.lent _) => true
  | _ => false

/-- A borrow ends with the error that there are too many connections. -/
def isRefused : Event → Bool
  | returned (.borrow _) (.refused (.limitExceeded ..)) => true
  | _ => false

/-- A connect fails with the error that there are too many connections. -/
def isConnectRefused : Event → Bool
  | answered _ (.connect ..) c => c.failure.any LeaseError.isLimit
  | _ => false

/-- There was something to release. -/
def isReleased : Event → Bool
  | returned (.release ..) (.released true) => true
  | _ => false

/-- There was something to close. -/
def isClosed : Event → Bool
  | returned (.close ..) (.closed true) => true
  | _ => false

/-- A disconnect fails. -/
def isDisconnectFailure : Event → Bool
  | answered _ (.disconnect _) failure => failure.isSome
  | _ => false

/-- What a sweep reports to its caller. -/
def report? : Event → Option SweepReport
  | returned .sweep (.swept r) => some r
  | _ => none

/-- An answer, not a result. -/
def IsAnswer (e : Event) : Prop := ∃ k call a, e = .answered k call a

end Event

/-- The reports of the sweeps that callers asked for. -/
def System.sweepReports (m : System) : List SweepReport := m.events.filterMap Event.report?

/-- A run, with the reports of its scheduled sweeps. -/
inductive Recorded (may : Overlap) : System → List SweepReport → Prop
  | initial (settings : ManagerSettings) (factory : Factory) (now : Nat) :
      Recorded may (.initial settings factory now) []
  | tick {m m' : System} {scheduled new : List SweepReport} (hm : Recorded may m scheduled)
      (hmove : Moves may m (some .tick) m') (hnew : m'.state.reports = m.state.reports ++ new) :
      Recorded may m' (scheduled ++ new)
  | other {m m' : System} {scheduled : List SweepReport} {k : Option Command}
      (hm : Recorded may m scheduled) (hmove : Moves may m k m') (hk : k ≠ some .tick) :
      Recorded may m' scheduled

theorem Recorded.reachable {may : Overlap} {m : System} {scheduled : List SweepReport}
    (hm : Recorded may m scheduled) : Reachable may m := by
  induction hm with
  | initial settings factory now => exact .initial settings factory now
  | tick _ hmove _ ih => exact .next ih hmove
  | other _ hmove _ ih => exact .next ih hmove

/-! ### What a move owes and what it shows -/

/-- What is due when an operation moves: what it had still to book, and what it has `seen`. -/
structure Tally.Owed (due : Tally) (seen : List Event) (waiting : List Ongoing) : Prop where
  answers : ∀ e ∈ seen, e.IsAnswer
  owed : due.owed = (seen.filterMap Event.opened?).length + sumOf (·.frame.tally.owed) waiting
  refused : due.refused = seen.countP Event.isConnectRefused
  failed : due.failed = seen.countP Event.isDisconnectFailure
  report : ∀ v, due.report.of v = sumOf (·.frame.tally.report.of v) waiting
  marked : due.marked = sumOf (·.frame.tally.marked) waiting
  expired : due.expired = sumOf (·.frame.tally.expired) waiting

theorem owed_start : Tally.Owed {} [] [] := ⟨by simp, rfl, rfl, rfl, by simp, rfl, rfl⟩

theorem owed_answer (o : Ongoing) (a : o.frame.call.Answer) :
    (o.frame.due a).Owed [.answered o.command o.frame.call a] [o] := by
  obtain ⟨k, f⟩ := o
  have hanswer : ∀ e ∈ [Event.answered k f.call a], e.IsAnswer := fun e he =>
    ⟨k, f.call, a, List.mem_singleton.mp he⟩
  cases f with
  | opening r e produces timeout =>
    obtain ⟨h, failure⟩ := a
    cases failure with
    | none => exact ⟨hanswer, rfl, rfl, rfl, fun _ => rfl, rfl, rfl⟩
    | some error =>
      exact ⟨hanswer, rfl, List.countP_singleton.symm, rfl, fun _ => rfl, rfl, rfl⟩
  | closing c after =>
    refine ⟨hanswer, (Nat.zero_add _).symm, ?_, List.countP_singleton.symm, fun _ => rfl, rfl, rfl⟩
    cases after <;> rfl
  | telling | ticking | checkingOwn | recheckingOwn | checkingOther =>
    exact ⟨hanswer, rfl, rfl, rfl, fun _ => rfl, rfl, rfl⟩

/-- What a tally counts is what is shown at the end of a move, or left to be booked. -/
structure Shows (k : Command) (p : Progress Frame Result) : Prop where
  lent : (tally p).lent = [shown k p].countP Event.isServed
  released : (tally p).released = [shown k p].countP Event.isReleased
  closed : (tally p).closed = [shown k p].countP Event.isClosed
  refused : (tally p).refused = [shown k p].countP Event.isRefused
  owed : (tally p).owed = sumOf (·.frame.tally.owed) (left k p)
  report : ∀ v, (tally p).report.of v =
    sumOf (·.of v) ([shown k p].filterMap Event.report?) +
      sumOf (·.frame.tally.report.of v) (left k p)
  marked : (tally p).marked = sumOf (·.frame.tally.marked) (left k p)
  expired : (tally p).expired = sumOf (·.frame.tally.expired) (left k p)

theorem shows_of_fits {k : Command} {p : Progress Frame Result} (h : FitsOf k p) : Shows k p := by
  cases p with
  | paused f =>
    cases f with
    | closing c after =>
      cases after <;> exact ⟨rfl, rfl, rfl, rfl, rfl, fun _ => (Nat.zero_add _).symm, rfl, rfl⟩
    | telling | ticking | checkingOwn | recheckingOwn | checkingOther | opening =>
      exact ⟨rfl, rfl, rfl, rfl, rfl, fun _ => (Nat.zero_add _).symm, rfl, rfl⟩
  | done r =>
    cases r with
    | lent handle =>
      obtain ⟨r, rfl⟩ := h
      exact ⟨rfl, rfl, rfl, rfl, rfl, SweepReport.of_empty, rfl, rfl⟩
    | refused error =>
      obtain ⟨r, rfl⟩ := h
      cases error <;> exact ⟨rfl, rfl, rfl, rfl, rfl, SweepReport.of_empty, rfl, rfl⟩
    | released held =>
      obtain ⟨i, c, rfl⟩ := h
      cases held <;> exact ⟨rfl, rfl, rfl, rfl, rfl, SweepReport.of_empty, rfl, rfl⟩
    | closed held =>
      obtain ⟨i, c, rfl⟩ := h
      cases held <;> exact ⟨rfl, rfl, rfl, rfl, rfl, SweepReport.of_empty, rfl, rfl⟩
    | swept report =>
      obtain rfl : k = .sweep := h
      exact ⟨rfl, rfl, rfl, rfl, rfl, fun _ => rfl, rfl, rfl⟩
    | closedAll closed =>
      obtain rfl : k = .closeAll := h
      exact ⟨rfl, rfl, rfl, rfl, rfl, SweepReport.of_empty, rfl, rfl⟩
    | told =>
      obtain rfl | ⟨a, rfl⟩ := h <;>
        exact ⟨rfl, rfl, rfl, rfl, rfl, SweepReport.of_empty, rfl, rfl⟩

theorem report_of_tick {p : Progress Frame Result} (h : FitsOf .tick p) :
    (tally p).report = {} := by
  have hreported : ∀ (after : AfterSweep) total, after.Fits .tick → after.reported total = {} := by
    intro after total hfits
    cases after with
    | report => cases hfits
    | tick observers => rfl
  cases p with
  | paused f =>
    cases f with
    | closing c after =>
      cases after with
      | sweptIdle w slots rest | sweptSurplus w slots rest =>
        exact hreported rest.after rest.total h
      | inspected | ownUseless | displacedByTaken | displacedByOpened | requested | drained => rfl
    | telling | ticking | checkingOwn | recheckingOwn | checkingOther | opening => rfl
  | done r =>
    cases r with
    | swept report => cases h
    | lent | refused | released | closed | closedAll | told => rfl

/-! ### Moves -/

/-- What a move does to the books. -/
inductive System.Booking (m : System) : Option Command → System → Prop
  /-- An operation moves; those that were `waiting` for it are gone, the others are the `rest`. -/
  | operation {k : Command} {seen : List Event} {waiting rest : List Ongoing} {step : Step}
      {due : Tally} (ht : step.Tallied k m.state due) (howed : due.Owed seen waiting)
      (hwaiting : ∀ o ∈ waiting, o.command = k ∧ o.frame.Fits k)
      (hrest : ∀ o ∈ rest, o ∈ m.ongoing)
      (hsplit : ∀ f, sumOf f m.ongoing = sumOf f waiting + sumOf f rest) :
      Booking m (some k) (m.moved k seen rest step)
  /-- Nothing is booked, and those that are gone had nothing to book. -/
  | idle {k : Option Command} {m' : System} {gone : List Ongoing}
      (hledger : m'.state.ledger = m.state.ledger) (hslots : m'.state.slots = m.state.slots)
      (hjournal : m'.state.journal = m.state.journal) (hevents : m'.events = m.events)
      (hgone : ∀ o ∈ gone, o.frame.tally = {}) (hrest : ∀ o ∈ m'.ongoing, o ∈ m.ongoing)
      (hsplit : ∀ f, sumOf f m.ongoing = sumOf f gone + sumOf f m'.ongoing) :
      Booking m k m'

section moves
variable {may : Overlap} {m m' : System} {k : Option Command} {scheduled new : List SweepReport}

theorem Frame.tally_of_tells {f : Frame} (h : f.call.tells) : f.tally = {} := by
  cases f with
  | telling | ticking => rfl
  | checkingOwn | recheckingOwn | checkingOther | opening | closing => cases h

theorem sumOf_ongoing {before later : List Ongoing} {o : Ongoing}
    (hm : m.ongoing = before ++ o :: later) (f : Ongoing → Nat) :
    sumOf f m.ongoing = sumOf f [o] + sumOf f (before ++ later) := by
  rw [hm, sumOf_append, sumOf_append, sumOf_cons, sumOf_cons, sumOf_nil]
  omega

theorem Moves.booking (hfits : ∀ o ∈ m.ongoing, o.frame.Fits o.command) (hmove : Moves may m k m') :
    m.Booking k m' := by
  cases hmove with
  | start k hk =>
    exact .operation (tallied_start m.state m.now k) owed_start (by simp) (fun _ ho => ho)
      fun f => (Nat.zero_add _).symm
  | resume before o later a hm ho ha =>
    have hfit : o.frame.Fits o.command := hfits o (by rw [hm]; simp)
    exact .operation (tallied_resume hfit m.state m.now a) (owed_answer o a)
      (fun p hp => by rw [List.mem_singleton.mp hp]; exact ⟨rfl, hfit⟩)
      (fun p hp => System.mem_ongoing hm hp) (sumOf_ongoing hm)
  | fail before o later hm ho htells =>
    exact .idle rfl rfl rfl rfl
      (fun p hp => by rw [List.mem_singleton.mp hp]; exact Frame.tally_of_tells htells)
      (fun p hp => System.mem_ongoing hm hp) (sumOf_ongoing hm)
  | attach o =>
    have hnone : ∀ p ∈ ([] : List Ongoing), p.frame.tally = {} := by simp
    exact .idle rfl rfl rfl rfl hnone (fun _ hp => hp) fun f => (Nat.zero_add _).symm
  | pass t ht =>
    have hnone : ∀ p ∈ ([] : List Ongoing), p.frame.tally = {} := by simp
    exact .idle rfl rfl rfl rfl hnone (fun _ hp => hp) fun f => (Nat.zero_add _).symm

end moves

/-! ### The books -/

/-- The ledger agrees with what was seen, up to what waiting operations have still to book. -/
structure System.Booked (m : System) (scheduled : List SweepReport) : Prop where
  fits : ∀ o ∈ m.ongoing, o.frame.Fits o.command
  borrowed : m.state.ledger.borrowed = m.events.countP Event.isServed
  served : m.state.ledger.reused + m.state.ledger.stolen + m.state.ledger.created =
    m.state.ledger.borrowed
  created : m.state.ledger.created + sumOf (·.frame.tally.owed) m.ongoing = m.opened.length
  released : m.state.ledger.released = m.events.countP Event.isReleased
  closed : m.state.ledger.closed = m.events.countP Event.isClosed
  overLimit : m.state.ledger.overLimit + m.events.countP Event.isConnectRefused =
    m.events.countP Event.isRefused
  failures : m.state.ledger.disconnectFailures = m.events.countP Event.isDisconnectFailure
  evicted : ∀ v, m.state.ledger.evicted v = m.state.evictions v
  reports : ∀ v, sumOf (·.of v) m.state.reports = sumOf (·.of v) m.sweepReports +
    sumOf (·.frame.tally.report.of v) m.ongoing + sumOf (·.of v) scheduled

namespace System.Booked

section moved
variable {m : System} {k : Command} {seen : List Event} {waiting rest : List Ongoing} {step : Step}
  {due : Tally} {scheduled new : List SweepReport}

theorem countP_moved (p : Event → Bool) : (m.moved k seen rest step).events.countP p =
    m.events.countP p + seen.countP p + [shown k step.2].countP p := by
  rw [System.moved, List.countP_append, List.countP_append]

theorem countP_answers {p : Event → Bool} (hp : ∀ k call a, p (.answered k call a) = false)
    (hseen : ∀ e ∈ seen, e.IsAnswer) : seen.countP p = 0 := by
  refine List.countP_eq_zero.mpr fun e he => ?_
  obtain ⟨k, call, a, rfl⟩ := hseen e he
  rw [hp]
  exact Bool.false_ne_true

theorem countP_shown {p : Event → Bool} (hcalled : ∀ k call, p (.called k call) = false)
    (hreturned : ∀ k r, p (.returned k r) = false) : [shown k step.2].countP p = 0 := by
  have hshown : p (shown k step.2) = false := by
    cases step.2 with
    | paused f => exact hcalled k f.call
    | done r => exact hreturned k r
  rw [List.countP_singleton, hshown]
  rfl

theorem sweepReports_moved (hseen : ∀ e ∈ seen, e.IsAnswer) :
    (m.moved k seen rest step).sweepReports =
      m.sweepReports ++ [shown k step.2].filterMap Event.report? := by
  have hnone : seen.filterMap Event.report? = [] := by
    refine List.filterMap_eq_nil_iff.mpr fun e he => ?_
    obtain ⟨k, call, a, rfl⟩ := hseen e he
    rfl
  rw [System.sweepReports, System.moved, List.filterMap_append, List.filterMap_append, hnone,
    List.append_nil]
  rfl

theorem reports_moved (ht : step.Tallied k m.state due) (howed : due.Owed seen waiting)
    (hwaiting : ∀ o ∈ waiting, o.command = k ∧ o.frame.Fits k)
    (hticks : k = .tick → step.1.reports = m.state.reports ++ new) (hother : k ≠ .tick → new = [])
    (v : Verdict) : sumOf (·.of v) step.1.reports + sumOf (·.frame.tally.report.of v) waiting =
      sumOf (·.of v) m.state.reports + sumOf (·.of v) ([shown k step.2].filterMap Event.report?) +
        sumOf (·.frame.tally.report.of v) (left k step.2) + sumOf (·.of v) new := by
  have hshows := (shows_of_fits ht.fits).report v
  have howes := howed.report v
  by_cases hk : k = .tick
  · subst hk
    -- no caller gets the report of a tick: all that is new was scheduled
    have hwaits : sumOf (·.frame.tally.report.of v) waiting = 0 := by
      refine sumOf_eq_zero _ fun o ho => ?_
      have hnone : o.frame.tally.report = {} :=
        report_of_tick (p := .paused o.frame) (hwaiting o ho).2
      rw [hnone, SweepReport.of_empty]
    rw [report_of_tick ht.fits, SweepReport.of_empty] at hshows
    rw [hticks rfl, sumOf_append]
    omega
  · -- the reports of a caller's sweep are in its result, or wait for it
    have hreported := ht.reported hk v
    rw [hother hk, sumOf_nil]
    omega

theorem moved (h : m.Booked scheduled) (ht : step.Tallied k m.state due)
    (howed : due.Owed seen waiting) (hwaiting : ∀ o ∈ waiting, o.command = k ∧ o.frame.Fits k)
    (hrest : ∀ o ∈ rest, o ∈ m.ongoing)
    (hsplit : ∀ f, sumOf f m.ongoing = sumOf f waiting + sumOf f rest)
    (hticks : k = .tick → step.1.reports = m.state.reports ++ new) (hother : k ≠ .tick → new = []) :
    (m.moved k seen rest step).Booked (scheduled ++ new) := by
  have hshows := shows_of_fits ht.fits
  have hbooks := ht.books
  have hongoing : ∀ f, sumOf f (m.moved k seen rest step).ongoing =
      sumOf f (left k step.2) + sumOf f rest := fun f => sumOf_append f _ _
  exact {
    fits := fun o ho => by
      rcases System.mem_moved ho with ⟨rfl, hpaused⟩ | ho
      · have hfits := ht.fits
        rwa [hpaused] at hfits
      · exact h.fits o (hrest o ho)
    borrowed := by
      rw [countP_moved, countP_answers (fun _ _ _ => rfl) howed.answers, ← hshows.lent,
        ← h.borrowed]
      exact hbooks.borrowed
    served := by
      have hserved := hbooks.served
      have hborrowed := hbooks.borrowed
      have hbefore := h.served
      show step.1.ledger.reused + step.1.ledger.stolen + step.1.ledger.created =
        step.1.ledger.borrowed
      omega
    created := by
      have hcreated := hbooks.created
      have hbefore := h.created
      have howes := howed.owed
      have hleft := hshows.owed
      rw [System.opened_moved, List.length_append, hongoing, ← hbefore, hsplit]
      show step.1.ledger.created + _ = _
      omega
    released := by
      rw [countP_moved, countP_answers (fun _ _ _ => rfl) howed.answers, ← hshows.released,
        ← h.released]
      exact hbooks.released
    closed := by
      rw [countP_moved, countP_answers (fun _ _ _ => rfl) howed.answers, ← hshows.closed,
        ← h.closed]
      exact hbooks.closed
    overLimit := by
      have hover := hbooks.overLimit
      have hbefore := h.overLimit
      have hanswers : seen.countP Event.isRefused = 0 :=
        countP_answers (fun _ _ _ => rfl) howed.answers
      have hshown : [shown k step.2].countP Event.isConnectRefused = 0 :=
        countP_shown (fun _ _ => rfl) fun _ _ => rfl
      rw [countP_moved, countP_moved, hanswers, hshown, ← hshows.refused, ← howed.refused]
      show step.1.ledger.overLimit + _ = _
      omega
    failures := by
      have hshown : [shown k step.2].countP Event.isDisconnectFailure = 0 :=
        countP_shown (fun _ _ => rfl) fun _ _ => rfl
      rw [countP_moved, hshown, ← howed.failed, ← h.failures]
      exact hbooks.failures
    evicted := fun v => by
      have hevicted := ht.evicted v
      have hbefore := h.evicted v
      show step.1.ledger.evicted v = step.1.evictions v
      omega
    reports := fun v => by
      have hreports := reports_moved ht howed hwaiting hticks hother v
      have hbefore := h.reports v
      rw [hsplit] at hbefore
      rw [hongoing, sweepReports_moved howed.answers, sumOf_append, sumOf_append]
      show sumOf (·.of v) step.1.reports = _
      omega }

end moved

theorem next {m m' : System} {k : Option Command} {scheduled new : List SweepReport}
    (h : m.Booked scheduled) (hmove : m.Booking k m')
    (hticks : k = some .tick → m'.state.reports = m.state.reports ++ new)
    (hother : k ≠ some .tick → new = []) : m'.Booked (scheduled ++ new) := by
  cases hmove with
  | operation ht howed hwaiting hrest hsplit =>
    exact h.moved ht howed hwaiting hrest hsplit (fun hk => hticks (congrArg some hk))
      fun hk => hother fun hsome => hk (Option.some.inj hsome)
  | @idle _ _ gone hledger hslots hjournal hevents hgone hrest hsplit =>
    have hreports : m'.state.reports = m.state.reports := by
      rw [State.reports, hjournal, State.reports]
    have hnone : new = [] := by
      by_cases hk : k = some .tick
      · have hsame := hticks hk
        rw [hreports] at hsame
        exact List.self_eq_append_right.mp hsame
      · exact hother hk
    have howed : sumOf (·.frame.tally.owed) gone = 0 :=
      sumOf_eq_zero _ fun o ho => by rw [hgone o ho]
    have hreported : ∀ v, sumOf (·.frame.tally.report.of v) gone = 0 := fun v =>
      sumOf_eq_zero _ fun o ho => by rw [hgone o ho, SweepReport.of_empty]
    rw [hnone, List.append_nil]
    exact {
      fits := fun o ho => h.fits o (hrest o ho)
      borrowed := by
        rw [hledger, hevents]
        exact h.borrowed
      served := by
        rw [hledger]
        exact h.served
      created := by
        have hcreated := h.created
        rw [hsplit, howed, Nat.zero_add] at hcreated
        rw [hledger, System.opened, hevents]
        exact hcreated
      released := by
        rw [hledger, hevents]
        exact h.released
      closed := by
        rw [hledger, hevents]
        exact h.closed
      overLimit := by
        rw [hledger, hevents]
        exact h.overLimit
      failures := by
        rw [hledger, hevents]
        exact h.failures
      evicted := fun v => by
        rw [hledger, State.evictions, State.verdicts, hjournal, hreports]
        exact h.evicted v
      reports := fun v => by
        have hbefore := h.reports v
        rw [hsplit, hreported, Nat.zero_add] at hbefore
        rw [hreports, System.sweepReports, hevents]
        exact hbefore }

end System.Booked

section runs
variable {may : Overlap} {m : System} {scheduled : List SweepReport}

theorem Recorded.booked (hm : Recorded may m scheduled) : m.Booked scheduled := by
  induction hm with
  | initial settings factory now =>
    exact ⟨by simp [System.initial], rfl, rfl, rfl, rfl, rfl, rfl, rfl,
      fun v => by cases v <;> rfl, fun v => rfl⟩
  | tick _ hmove hnew ih => exact ih.next (hmove.booking ih.fits) (fun _ => hnew) (by simp)
  | @other m m' scheduled k _ hmove hk ih =>
    have hbooked : m'.Booked (scheduled ++ []) :=
      ih.next (hmove.booking ih.fits) (fun h => absurd h hk) fun _ => rfl
    rwa [List.append_nil] at hbooked

theorem Reachable.recorded (hm : Reachable may m) : ∃ scheduled, Recorded may m scheduled := by
  induction hm with
  | initial settings factory now => exact ⟨[], .initial settings factory now⟩
  | @next m m' k _ hmove ih =>
    obtain ⟨scheduled, hm⟩ := ih
    by_cases hk : k = some .tick
    · subst hk
      obtain ⟨new, hnew⟩ : m.state.reports <+: m'.state.reports := by
        cases hmove.booking hm.booked.fits with
        | operation ht => exact ht.reports
        | idle _ _ hjournal =>
          exact ⟨[], by rw [List.append_nil, State.reports, State.reports, hjournal]⟩
      exact ⟨scheduled ++ new, .tick hm hmove hnew.symm⟩
    · exact ⟨scheduled, .other hm hmove hk⟩

theorem Reachable.fits (hm : Reachable may m) : ∀ o ∈ m.ongoing, o.frame.Fits o.command := by
  obtain ⟨scheduled, hrecorded⟩ := hm.recorded
  exact hrecorded.booked.fits

end runs

/-! ### The metrics at rest -/

/-- The metrics are the counts of what was seen. -/
structure System.Agrees (m : System) (scheduled : List SweepReport) : Prop where
  served : m.state.metrics.borrowed =
    m.state.metrics.reused + m.state.metrics.stolen + m.state.metrics.created
  borrowed : m.state.metrics.borrowed = m.events.countP Event.isServed
  created : m.state.metrics.created = m.opened.length
  released : m.state.metrics.released = m.events.countP Event.isReleased
  closed : m.state.metrics.closed = m.events.countP Event.isClosed
  /-- A borrow whose own connect was refused passes that on, and does not count. -/
  overLimit : m.state.metrics.overLimit + m.events.countP Event.isConnectRefused =
    m.events.countP Event.isRefused
  failures : m.state.metrics.disconnectFailures = m.events.countP Event.isDisconnectFailure
  evictedReleased : m.state.metrics.evictedReleased =
    m.state.verdicts .release + sumOf (·.released) (m.sweepReports ++ scheduled)
  evictedClosed : m.state.metrics.evictedClosed =
    m.state.verdicts .close + sumOf (·.closed) (m.sweepReports ++ scheduled)

theorem Recorded.agrees {may : Overlap} {m : System} {scheduled : List SweepReport}
    (hm : Recorded may m scheduled) (hrest : m.ongoing = []) : m.Agrees scheduled := by
  have hbooked := hm.booked
  have hsum : ∀ f, sumOf f m.ongoing = 0 := fun f => by rw [hrest, sumOf_nil]
  have hevicted : ∀ v, m.state.ledger.evicted v =
      m.state.verdicts v + sumOf (·.of v) (m.sweepReports ++ scheduled) := by
    intro v
    rw [hbooked.evicted, State.evictions, hbooked.reports, hsum, Nat.add_zero, sumOf_append]
  have hcreated := hbooked.created
  rw [hsum, Nat.add_zero] at hcreated
  exact ⟨hbooked.served.symm, hbooked.borrowed, hcreated, hbooked.released, hbooked.closed,
    hbooked.overLimit, hbooked.failures, hevicted .release, hevicted .close⟩

/-- **Whenever nothing is in progress the metrics are the counts** of what was seen of the run:
results, answers, verdicts of inspections, and reports of sweeps, asked for or scheduled. -/
theorem books_agree {may : Overlap} {m : System} (hm : Reachable may m) (hrest : m.ongoing = []) :
    (∃ scheduled, Recorded may m scheduled) ∧
      ∀ scheduled, Recorded may m scheduled → m.Agrees scheduled :=
  ⟨hm.recorded, fun _ h => h.agrees hrest⟩

/-- A borrow that a scheduled sweep ends. -/
theorem books_agree_swept : ∃ m, Reachable .any m ∧ m.ongoing = [] ∧
    Recorded .any m [{ released := 1 }] ∧ m.Agrees [{ released := 1 }] ∧
    m.state.metrics.borrowed = 1 ∧ m.state.metrics.evictedReleased = 1 := by
  let i : Identity := ⟨"host", 22, "user", "secret"⟩
  let r : Request := ⟨i, ⟨1⟩, .sftp⟩
  let o : Ongoing := ⟨.borrow r, .opening r 0 .sftp (.ofMillis 5000)⟩
  let m₁ := (System.initial { borrowTimeout := .ofMillis 1 } .faithful 0).started (.borrow r)
  let m₂ := m₁.resumed o ⟨⟨1, .sftp⟩, none⟩ []
  let m₃ : System := { m₂ with now := 2000000 }
  let m₄ := m₃.started .tick
  have hm₁ : Recorded .any m₁ [] :=
    .other (.initial _ .faithful 0) (.start _ _ fun o ho => by cases ho) (by simp)
  have hm₂ : Recorded .any m₂ [] :=
    .other hm₁ (.resume m₁ [] o [] ⟨⟨1, .sftp⟩, none⟩ rfl (by simp) ⟨by decide, rfl⟩) (by simp)
  have hm₃ : Recorded .any m₃ [] := .other hm₂ (.pass m₂ 2000000 (by decide)) (by simp)
  have hm₄ : Recorded .any m₄ ([] ++ [{ released := 1 }]) :=
    .tick hm₃ (.start m₃ .tick fun _ _ => trivial) (by decide)
  have hrest : m₄.ongoing = [] := List.isEmpty_iff.mp (by decide)
  obtain ⟨-, hagrees⟩ := books_agree hm₄.reachable hrest
  exact ⟨m₄, hm₄.reachable, hrest, hm₄, hagrees _ hm₄, by decide, by decide⟩

/-- A connect is refused: the borrow fails as at the limit, and is not counted. -/
theorem refusal_passed_on : ∃ m, Reachable .calm m ∧ m.ongoing = [] ∧
    m.events.countP Event.isRefused = 1 ∧ m.state.metrics.overLimit = 0 := by
  let i : Identity := ⟨"host", 22, "user", "secret"⟩
  let r : Request := ⟨i, ⟨1⟩, .sftp⟩
  let o : Ongoing := ⟨.borrow r, .opening r 0 .sftp (.ofMillis 5000)⟩
  let refused : Connected := ⟨⟨1, .sftp⟩, some (.limitExceeded i ⟨1⟩ 0 8)⟩
  let m₁ := (System.initial {} .faithful 0).started (.borrow r)
  let m₂ := m₁.resumed o refused []
  have hm₁ : Reachable .calm m₁ :=
    .next (.initial {} .faithful 0) (.start _ _ fun o ho => by cases ho)
  have hm₂ : Reachable .calm m₂ :=
    .next hm₁ (.resume m₁ [] o [] refused rfl (by simp) ⟨by decide, rfl⟩)
  exact ⟨m₂, hm₂, rfl, by decide, by decide⟩

end ConnectionLeasing.Affine

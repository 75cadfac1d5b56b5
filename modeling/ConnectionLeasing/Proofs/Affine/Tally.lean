import ConnectionLeasing.Proofs.Affine.Operating

/-!
# What each operation books

The counters of a manager are bumped all over its functions. `Step.Tallied` says of a function what
it books from where it starts to its next call or its end, and `tally` what there is to be seen of
that: a result, or an operation that waits with something still to be booked.

* `Step.Tallied.after`: an operation that goes on after evictions, which are booked together with
  the notices that report them. `after_mark`, `after_sweep`, `after_inspection`, `after_finish` are
  the ways to get there.
* `tallied_keep`, `tallied_close`, `tallied_done`: the ways to end or to wait.
* `tallied_start`, `tallied_resume`: every move of an operation.

Nothing here depends on what happens while an operation waits.
-/

namespace ConnectionLeasing

/-! ### Counting -/

/-- The sum of `f` over a list. -/
def sumOf {α : Type} (f : α → Nat) (l : List α) : Nat := l.foldr (fun x n => f x + n) 0

section sums
variable {α : Type} (f : α → Nat)

@[simp] theorem sumOf_nil : sumOf f [] = 0 := rfl

@[simp] theorem sumOf_cons (x : α) (l : List α) : sumOf f (x :: l) = f x + sumOf f l := rfl

@[simp] theorem sumOf_append (l l' : List α) : sumOf f (l ++ l') = sumOf f l + sumOf f l' := by
  induction l with
  | nil => simp
  | cons x l ih => simp [ih, Nat.add_assoc]

theorem sumOf_eq_zero {l : List α} (h : ∀ x ∈ l, f x = 0) : sumOf f l = 0 := by
  induction l with
  | nil => rfl
  | cons x l ih =>
    rw [sumOf_cons, h x List.mem_cons_self, ih fun y hy => h y (List.mem_cons_of_mem x hy)]

end sums

/-- What a sweep did that a verdict on a slot does as well. -/
def SweepReport.of (r : SweepReport) : Verdict → Nat
  | .keep => 0
  | .release => r.released
  | .close => r.closed

theorem SweepReport.of_merge (r r' : SweepReport) (v : Verdict) :
    (r.merge r').of v = r.of v + r'.of v := by
  cases v with
  | keep => rfl
  | release => rfl
  | close =>
    simp only [of, closed, merge]
    omega

@[simp] theorem SweepReport.of_empty (v : Verdict) : ({} : SweepReport).of v = 0 := by
  cases v <;> rfl

/-- How many slots were evicted by a verdict. -/
def Ledger.evicted (l : Ledger) : Verdict → Nat
  | .keep => 0
  | .release => l.evictedReleased
  | .close => l.evictedClosed

/-- The verdict that an inspection gave. -/
def Notice.verdict? : Notice → Option Verdict
  | .inspected _ _ v => some v
  | _ => none

/-- The report of the sweep of one identity. -/
def Notice.report? : Notice → Option SweepReport
  | .swept _ r _ => some r
  | _ => none

namespace Affine

namespace State

/-- The reports of all sweeps so far, identity by identity; one that did nothing leaves none. -/
def reports (s : State) : List SweepReport := s.journal.toList.filterMap Notice.report?

/-- How often an inspection gave a verdict so far. -/
def verdicts (s : State) (v : Verdict) : Nat :=
  s.journal.toList.countP fun n => n.verdict? = some v

/-- How many slots are lent out, registered or not. -/
def lentSlots (s : State) : Nat := s.slots.countP (·.borrowed)

/-- How often slots were evicted by a verdict, as reported. -/
def evictions (s : State) (v : Verdict) : Nat := s.verdicts v + sumOf (·.of v) s.reports

end State

/-! ### What belongs to a command -/

def AfterSweep.Fits (k : Command) : AfterSweep → Prop
  | .report => k = .sweep
  | .tick _ => k = .tick

def AfterClosing.Fits (k : Command) : AfterClosing → Prop
  | .inspected _ t => k.telling? = some t
  | .ownUseless r _ | .displacedByTaken r .. | .displacedByOpened r _ => k = .borrow r
  | .requested => ∃ i c, k = .close i c
  | .drained .. => k = .closeAll
  | .sweptIdle _ _ rest | .sweptSurplus _ _ rest => rest.after.Fits k

/-- The frame is one that an operation waits at for a command. -/
def Frame.Fits (k : Command) : Frame → Prop
  | .telling _ _ t => k.telling? = some t
  | .ticking .. => k = .tick
  | .checkingOwn r .. | .recheckingOwn r .. | .checkingOther r .. | .opening r .. => k = .borrow r
  | .closing _ after => after.Fits k

/-- The result is one that answers a command. -/
def Result.Fits (k : Command) : Result → Prop
  | .lent _ | .refused _ => ∃ r, k = .borrow r
  | .released _ => ∃ i c, k = .release i c
  | .closed _ => ∃ i c, k = .close i c
  | .swept _ => k = .sweep
  | .closedAll _ => k = .closeAll
  | .told => k = .tick ∨ ∃ a, k = .tell a

def FitsOf (k : Command) : Progress Frame Result → Prop
  | .paused f => f.Fits k
  | .done r => r.Fits k

/-! ### What there is to be seen -/

/-- The results of an operation, and what it has still to book. -/
structure Tally where
  lent : Nat := 0
  released : Nat := 0
  closed : Nat := 0
  /-- Refusals at the limit. -/
  refused : Nat := 0
  /-- Disconnects that failed. -/
  failed : Nat := 0
  /-- Connections that were opened and are not booked. -/
  owed : Nat := 0
  /-- Slots that were lent by a borrow that is not booked. -/
  marked : Nat := 0
  /-- Slots that were found lent for too long by a sweep that is not booked. -/
  expired : Nat := 0
  /-- What the sweep of a caller has done so far. -/
  report : SweepReport := {}

/-- What is reported to the caller of a sweep. -/
def AfterSweep.reported (total : SweepReport) : AfterSweep → SweepReport
  | .report => total
  | .tick _ => {}

/-- What a sweep has still to book. -/
def Sweep.tally (w : Sweep) (rest : SweepRest) : Tally where
  expired := w.report.released
  report := rest.after.reported rest.total

def AfterClosing.tally : AfterClosing → Tally
  | .displacedByTaken .. => { marked := 1 }
  | .displacedByOpened .. => { owed := 1, marked := 1 }
  | .sweptIdle w _ rest | .sweptSurplus w _ rest => w.tally rest
  | .inspected .. | .ownUseless .. | .requested | .drained .. => {}

def Frame.tally : Frame → Tally
  | .closing _ after => after.tally
  | .telling .. | .ticking .. | .checkingOwn .. | .recheckingOwn .. | .checkingOther ..
  | .opening .. => {}

def LeaseError.isLimit : LeaseError → Bool
  | .limitExceeded .. => true
  | _ => false

def Result.tally : Result → Tally
  | .lent _ => { lent := 1 }
  | .refused e => { refused := if LeaseError.isLimit e then 1 else 0 }
  | .released held => { released := if held then 1 else 0 }
  | .closed held => { closed := if held then 1 else 0 }
  | .swept r => { report := r }
  | .closedAll _ | .told => {}

def tally : Progress Frame Result → Tally
  | .paused f => f.tally
  | .done r => r.tally

/-- What an operation has to book once its call is answered. -/
def Frame.due : (f : Frame) → f.call.Answer → Tally
  | .opening .., c =>
    match c.failure with
    | none => { owed := 1 }
    | some e => { refused := if LeaseError.isLimit e then 1 else 0 }
  | .closing _ after, failure => { after.tally with failed := if failure.isSome then 1 else 0 }
  | .telling .., _ | .ticking .., _ | .checkingOwn .., _ | .recheckingOwn .., _
  | .checkingOther .., _ => {}

/-- What is booked in a ledger: what was `due` is settled, what is `seen` is counted. -/
structure Ledger.Books (l l' : Ledger) (due seen : Tally) : Prop where
  borrowed : l'.borrowed = l.borrowed + seen.lent
  served : l'.reused + l'.stolen + l'.created = l.reused + l.stolen + l.created + seen.lent
  created : l'.created + seen.owed = l.created + due.owed
  released : l'.released = l.released + seen.released
  closed : l'.closed = l.closed + seen.closed
  overLimit : l'.overLimit + due.refused = l.overLimit + seen.refused
  failures : l'.disconnectFailures = l.disconnectFailures + due.failed

/-- What a step books. It settles what was `due` and leaves what its `tally` shows. -/
structure Step.Tallied (step : Step) (k : Command) (s : State) (due : Tally) : Prop where
  fits : FitsOf k step.2
  books : Ledger.Books s.ledger step.1.ledger due (tally step.2)
  evicted : ∀ v, step.1.ledger.evicted v + s.evictions v =
    s.ledger.evicted v + step.1.evictions v
  /-- Reports are only added, and those of a caller's sweep are added up in its result. -/
  reports : s.reports <+: step.1.reports
  reported : k ≠ .tick → ∀ v, sumOf (·.of v) s.reports + (tally step.2).report.of v =
    sumOf (·.of v) step.1.reports + due.report.of v
  /-- A slot is lent by a borrow, and back idle if it was evicted. -/
  lent : step.1.lentSlots + step.1.ledger.evictedReleased + (tally step.2).expired +
      (s.ledger.borrowed + due.marked) ≤
    s.lentSlots + s.ledger.evictedReleased + due.expired +
      (step.1.ledger.borrowed + (tally step.2).marked)

/-- On the way from one state to another only evictions are booked, and the reports `new` are
made. -/
structure State.Audits (s s' : State) (new : List SweepReport) : Prop where
  ledger : s'.ledger = { s.ledger with
    evictedReleased := s'.ledger.evictedReleased
    evictedClosed := s'.ledger.evictedClosed }
  evicted : ∀ v, s'.ledger.evicted v + s.evictions v = s.ledger.evicted v + s'.evictions v
  reports : s'.reports = s.reports ++ new

/-- On the way from one state to another no eviction is reported. -/
structure State.Silent (s s' : State) : Prop where
  verdicts : ∀ v, s'.verdicts v = s.verdicts v
  reports : s'.reports = s.reports

/-- On the way from one state to another nothing is booked, and no slot is lent. -/
structure State.Quiet (s s' : State) : Prop extends s.Silent s' where
  ledger : s'.ledger = s.ledger
  lent : s'.lentSlots ≤ s.lentSlots

/-! ### Slots that are lent -/

section slots
variable (s : State) (id : Nat)

theorem countP_modify {l : List Slot} {x : Slot} (hx : l[id]? = some x) (f : Slot → Slot) :
    (l.modify id f).countP (·.borrowed) + (if x.borrowed then 1 else 0) =
      l.countP (·.borrowed) + if (f x).borrowed then 1 else 0 := by
  induction l generalizing id with
  | nil => cases hx
  | cons y l ih =>
    cases id with
    | zero =>
      cases hx
      rw [List.modify_zero_cons, List.countP_cons, List.countP_cons]
      omega
    | succ id =>
      have ih := ih id hx
      rw [List.modify_succ_cons, List.countP_cons, List.countP_cons]
      omega

theorem lentSlots_mapSlot_le (f : Slot → Slot) :
    (s.mapSlot id f).lentSlots ≤ s.lentSlots + 1 := by
  cases hx : s.slots[id]? with
  | none =>
    rw [State.lentSlots, State.mapSlot, List.modify_eq_self (List.getElem?_eq_none_iff.mp hx)]
    exact Nat.le_succ _
  | some x =>
    have hcount := countP_modify id hx f
    rw [State.lentSlots, State.lentSlots, State.mapSlot]
    dsimp only
    split at hcount <;> split at hcount <;> omega

theorem lentSlots_mapSlot_of_imp {f : Slot → Slot} (hf : ∀ x, (f x).borrowed → x.borrowed) :
    (s.mapSlot id f).lentSlots ≤ s.lentSlots := by
  cases hx : s.slots[id]? with
  | none =>
    rw [State.lentSlots, State.mapSlot, List.modify_eq_self (List.getElem?_eq_none_iff.mp hx)]
    exact Nat.le_refl _
  | some x =>
    have hcount := countP_modify id hx f
    have himp := hf x
    rw [State.lentSlots, State.lentSlots, State.mapSlot]
    dsimp only
    split at hcount
    · split at hcount <;> omega
    · rename_i hidle
      rw [if_neg fun hborrowed => hidle (himp hborrowed)] at hcount
      omega

theorem lentSlots_mapSlot_idle (h : s.isLent id = true) {f : Slot → Slot}
    (hf : ∀ x, (f x).borrowed = false) : (s.mapSlot id f).lentSlots + 1 = s.lentSlots := by
  obtain ⟨x, hx, hborrowed⟩ := (Option.any_eq_true ..).mp h
  have hcount := countP_modify id hx f
  rw [if_pos hborrowed, if_neg (by rw [hf]; exact Bool.false_ne_true)] at hcount
  exact hcount

theorem lentSlots_markIdle (now : Nat) (h : s.isLent id = true) :
    (s.mapSlot id (·.markIdle now)).lentSlots + 1 = s.lentSlots :=
  lentSlots_mapSlot_idle s id h fun _ => rfl

end slots

/-! ### Quiet changes -/

section quiet
variable {s s' s'' : State}

theorem State.Silent.trans (h : s.Silent s') (h' : s'.Silent s'') : s.Silent s'' :=
  ⟨fun v => (h'.verdicts v).trans (h.verdicts v), h'.reports.trans h.reports⟩

theorem State.Silent.evictions (h : s.Silent s') (v : Verdict) :
    s'.evictions v = s.evictions v := by
  rw [State.evictions, State.evictions, h.verdicts, h.reports]

theorem State.Quiet.refl (s : State) : s.Quiet s := ⟨⟨fun _ => rfl, rfl⟩, rfl, Nat.le_refl _⟩

theorem State.Quiet.trans (h : s.Quiet s') (h' : s'.Quiet s'') : s.Quiet s'' :=
  ⟨h.toSilent.trans h'.toSilent, h'.ledger.trans h.ledger, Nat.le_trans h'.lent h.lent⟩

theorem verdicts_note (s : State) (n : Notice) (v : Verdict) :
    (s.note n).verdicts v = s.verdicts v + if n.verdict? = some v then 1 else 0 := by
  simp [State.verdicts, State.note, List.countP_singleton]

theorem reports_note (s : State) (n : Notice) :
    (s.note n).reports = s.reports ++ n.report?.toList := by
  cases h : n.report? <;> simp [State.reports, State.note, h]

theorem quiet_note (s : State) (n : Notice) (hv : n.verdict? = none) (hr : n.report? = none) :
    s.Quiet (s.note n) := by
  refine ⟨⟨fun v => ?_, ?_⟩, rfl, Nat.le_refl _⟩
  · rw [verdicts_note, hv]
    rfl
  · rw [reports_note, hr]
    exact List.append_nil _

theorem silent_count (s : State) (f : Ledger → Ledger) (n : Notice) (hv : n.verdict? = none)
    (hr : n.report? = none) : s.Silent ((s.count f).note n) :=
  have hquiet := quiet_note (s.count f) n hv hr
  ⟨hquiet.verdicts, hquiet.reports⟩

theorem quiet_summarize (s : State) : s.Quiet s.summarize := by
  have hall : ∀ (l : List IdentityStatistics) (t : State), t.Quiet (l.foldl
      (fun s x => s.note (.identityConnections x.host x.port x.username x.contexts x.borrowed))
      t) := by
    intro l
    induction l with
    | nil => exact .refl
    | cons x l ih => exact fun t => (quiet_note t _ rfl rfl).trans (ih _)
  exact (quiet_note s _ rfl rfl).trans (hall _ _)

theorem quiet_registry (s : State) (registry : Registry) : s.Quiet { s with registry } :=
  ⟨⟨fun _ => rfl, rfl⟩, rfl, Nat.le_refl _⟩

theorem quiet_beginClosing (s : State) (c : Closing) : s.Quiet (s.beginClosing c) :=
  ⟨⟨fun _ => rfl, rfl⟩, rfl, lentSlots_mapSlot_of_imp s c.slot fun _ h => h⟩

end quiet

/-! ### Going on from a later state -/

section tallied
variable {k : Command} {now : Nat} {s s' : State} {step : Step} {due due' : Tally}

/-- An operation goes on from a later state. Evictions are booked as they are reported, and slots
that are lent or found lent for too long on the way are taken along. -/
theorem Step.Tallied.after {new : List SweepReport} (ht : step.Tallied k s' due')
    (h : s.Audits s' new)
    (hdue : due' = { due with
      marked := due'.marked
      expired := due'.expired
      report := due'.report })
    (hreport : k ≠ .tick → ∀ v, due'.report.of v = due.report.of v + sumOf (·.of v) new)
    (hlent : s'.lentSlots + s'.ledger.evictedReleased + due'.expired + due.marked ≤
      s.lentSlots + s.ledger.evictedReleased + due.expired + due'.marked) :
    step.Tallied k s due where
  fits := ht.fits
  books := by
    obtain ⟨hborrowed, hserved, hcreated, hreleased, hclosed, hover, hfailures⟩ := ht.books
    rw [h.ledger, hdue] at hcreated hover hfailures
    rw [h.ledger] at hborrowed hserved hreleased hclosed
    exact ⟨hborrowed, hserved, hcreated, hreleased, hclosed, hover, hfailures⟩
  evicted v := by
    have hstep := ht.evicted v
    have haudit := h.evicted v
    omega
  reports := by
    refine List.IsPrefix.trans ?_ ht.reports
    rw [h.reports]
    exact List.prefix_append _ _
  reported hk v := by
    have hstep := ht.reported hk v
    rw [h.reports, sumOf_append, hreport hk v] at hstep
    omega
  lent := by
    have hstep := ht.lent
    have hborrowed : s'.ledger.borrowed = s.ledger.borrowed := by rw [h.ledger]
    omega

theorem State.Silent.audits (h : s.Silent s') (hledger : s'.ledger = s.ledger) :
    s.Audits s' [] := by
  refine ⟨by rw [hledger], fun v => ?_, by rw [h.reports, List.append_nil]⟩
  rw [hledger, h.evictions]

theorem Step.Tallied.after_quiet (ht : step.Tallied k s' due) (h : s.Quiet s') :
    step.Tallied k s due := by
  refine ht.after (h.toSilent.audits h.ledger) rfl (fun _ _ => rfl) ?_
  have hlent := h.lent
  rw [h.ledger]
  omega

theorem tallied_keep (s : State) {next : Progress Frame Result} (hfits : FitsOf k next)
    {owed marked expired : Nat} {report : SweepReport}
    (h : tally next = { owed, marked, expired, report }) :
    Step.Tallied (s, next) k s { owed, marked, expired, report } where
  fits := hfits
  books := by
    rw [h]
    exact ⟨rfl, rfl, rfl, rfl, rfl, rfl, rfl⟩
  evicted _ := rfl
  reports := List.prefix_refl _
  reported _ _ := by rw [h]
  lent := Nat.le_of_eq (by rw [h])

theorem tallied_close (s : State) (c : Closing) {after : AfterClosing} (hfits : after.Fits k)
    {owed marked expired : Nat} {report : SweepReport}
    (h : after.tally = { owed, marked, expired, report }) :
    (s.close c after).Tallied k s { owed, marked, expired, report } :=
  have hframe : FitsOf k (.paused (.closing c after)) := hfits
  .after_quiet (tallied_keep (s.beginClosing c) hframe h) (quiet_beginClosing s c)

theorem Step.Tallied.after_mark {owed : Nat} (ht : step.Tallied k s' { owed, marked := 1 })
    (h : s.Silent s') (hledger : s'.ledger = s.ledger) (hlent : s'.lentSlots ≤ s.lentSlots + 1) :
    step.Tallied k s { owed } := by
  refine ht.after (h.audits hledger) rfl (fun _ _ => rfl) ?_
  rw [hledger]
  dsimp only
  omega

/-! ### Borrowing -/

theorem tallied_done {r : Result} (hfits : r.Fits k) (h : s.Silent s')
    (hbooks : Ledger.Books s.ledger s'.ledger due r.tally)
    (hevicted : ∀ v, s'.ledger.evicted v = s.ledger.evicted v)
    (hreport : r.tally.report = due.report)
    (hlent : s'.lentSlots + r.tally.expired + (s.ledger.borrowed + due.marked) ≤
      s.lentSlots + due.expired + (s'.ledger.borrowed + r.tally.marked)) :
    Step.Tallied (s', .done r) k s due where
  fits := hfits
  books := hbooks
  evicted v := by rw [hevicted, h.evictions]
  reports := ⟨[], (List.append_nil _).trans h.reports.symm⟩
  reported _ v := by
    rw [h.reports]
    exact congrArg (_ + SweepReport.of · v) hreport
  lent := by
    have hreleased : s'.ledger.evictedReleased = s.ledger.evictedReleased := hevicted .release
    simp only [tally]
    omega

theorem tallied_lend (s : State) (r : Request) (h : Handle) {served : Ledger → Ledger} {n : Notice}
    {owed : Nat} (hserved : ∀ l, served l = { l with
      reused := (served l).reused
      stolen := (served l).stolen
      created := l.created + owed })
    (hsum : ∀ l, (served l).reused + (served l).stolen + owed = l.reused + l.stolen + 1)
    (hv : n.verdict? = none) (hr : n.report? = none) :
    (s.lend served n h).Tallied (.borrow r) s { owed, marked := 1 } := by
  have hledger : (s.lend served n h).1.ledger = { s.ledger with
      borrowed := s.ledger.borrowed + 1
      reused := (served s.ledger).reused
      stolen := (served s.ledger).stolen
      created := s.ledger.created + owed } := by
    show ({ served s.ledger with borrowed := s.ledger.borrowed + 1 } : Ledger) = _
    rw [hserved s.ledger]
  have hsum := hsum s.ledger
  have hsilent : s.Silent (s.lend served n h).1 := silent_count s _ n hv hr
  have hlent : (s.lend served n h).1.lentSlots = s.lentSlots := rfl
  show Step.Tallied ((s.lend served n h).1, .done (.lent h)) (.borrow r) s _
  refine tallied_done ⟨r, rfl⟩ hsilent ?_ (fun v => ?_) rfl ?_
  · rw [hledger]
    refine ⟨rfl, ?_, rfl, rfl, rfl, rfl, rfl⟩
    show _ = _ + 1
    dsimp only
    omega
  · rw [hledger]
    cases v <;> rfl
  · rw [hledger, hlent]
    exact Nat.le_refl _

theorem tallied_lendReused (s : State) (r : Request) (h : Handle) :
    (lendReused s r h).Tallied (.borrow r) s { marked := 1 } := by
  refine tallied_lend s r h (fun _ => rfl) (fun l => ?_) rfl rfl
  dsimp only
  omega

theorem tallied_lendTaken (s : State) (r : Request) (source : ContextId) (h : Handle) :
    (lendTaken s r source h).Tallied (.borrow r) s { marked := 1 } := by
  refine tallied_lend s r h (fun _ => rfl) (fun l => ?_) rfl rfl
  dsimp only
  omega

theorem tallied_lendOpened (s : State) (r : Request) (h : Handle) :
    (lendOpened s r h).Tallied (.borrow r) s { owed := 1, marked := 1 } :=
  tallied_lend s r h (fun _ => rfl) (fun _ => rfl) rfl rfl

theorem tallied_refuseOverLimit (s : State) (r : Request) :
    (refuseOverLimit s r).Tallied (.borrow r) s {} :=
  tallied_done ⟨r, rfl⟩ (silent_count s _ _ rfl rfl)
    ⟨rfl, rfl, rfl, rfl, rfl, rfl, rfl⟩ (fun v => by cases v <;> rfl) rfl (Nat.le_refl _)

theorem tallied_openNew (s : State) (r : Request) (e : Nat) :
    (openNew s r e).Tallied (.borrow r) s {} := by
  have hrefused : FitsOf (.borrow r) (.done (.refused (.unsupported r.channel))) := ⟨r, rfl⟩
  unfold openNew
  split
  · apply tallied_keep <;> rfl
  · refine .after_quiet (tallied_keep _ hrefused rfl) ?_
    exact (quiet_registry s _).trans (quiet_note _ _ rfl rfl)

theorem tallied_claim (s : State) (r : Request) : (claim s r).Tallied (.borrow r) s {} := by
  unfold claim
  split
  · exact (tallied_openNew _ r _).after_quiet (quiet_registry s _)
  · exact (tallied_refuseOverLimit _ r).after_quiet (quiet_registry s _)

theorem tallied_resumeOpening (s : State) (now : Nat) (r : Request) (e : Nat) (produces : Channel)
    (timeout : Duration) (c : Connected) : (resumeOpening s now r e c).Tallied (.borrow r) s
      ((Frame.opening r e produces timeout).due c) := by
  unfold resumeOpening
  split
  · rename_i error herror
    have hdue : (Frame.opening r e produces timeout).due c =
        { refused := if LeaseError.isLimit error then 1 else 0 } := by
      simp only [Frame.due, herror]
    rw [hdue]
    exact tallied_done ⟨r, rfl⟩ ⟨fun _ => rfl, rfl⟩ ⟨rfl, rfl, rfl, rfl, rfl, rfl, rfl⟩
      (fun _ => rfl) rfl (Nat.le_refl _)
  · rename_i hnone
    have hdue : (Frame.opening r e produces timeout).due c = { owed := 1 } := by
      simp only [Frame.due, hnone]
    have hquiet := quiet_note s (.opened r.identity r.channel) rfl rfl
    -- the slot is lent from here on, and booked only when its handle is handed out
    have hmark : ∀ {step : Step} {registry : Registry}, step.Tallied (.borrow r)
        { s.note (.opened r.identity r.channel) with
          slots := s.slots ++ [Slot.lentTo r.context c.handle now], registry }
        { owed := 1, marked := 1 } → step.Tallied (.borrow r) s { owed := 1 } := by
      intro step registry ht
      refine ht.after_mark ⟨hquiet.verdicts, hquiet.reports⟩ rfl ?_
      show (s.slots ++ [Slot.lentTo r.context c.handle now]).countP (·.borrowed) ≤ _
      rw [List.countP_append]
      exact Nat.le_refl _
    rw [hdue]
    dsimp only
    split
    · apply hmark
      apply tallied_close <;> rfl
    · exact hmark (tallied_lendOpened _ r c.handle)

theorem tallied_takeOver (s : State) (r : Request) (e : Nat) (others : List (ContextId × Nat)) :
    (takeOver s r e others).Tallied (.borrow r) s {} := by
  induction others with
  | nil => exact tallied_claim s r
  | cons p others ih =>
    obtain ⟨owner, id⟩ := p
    rw [takeOver]
    split
    · exact ih
    · split
      · apply tallied_keep <;> rfl
      · exact ih

theorem tallied_resumeOther (s : State) (now : Nat) (r : Request) (e : Nat) (owner : ContextId)
    (id : Nat) (h : Handle) (others : List (ContextId × Nat)) (usable : Bool) :
    (resumeOther s now r e owner id h others usable).Tallied (.borrow r) s {} := by
  unfold resumeOther
  split
  · split
    · exact tallied_takeOver s r e others
    · rename_i registry displaced _
      have hmark : ∀ {step : Step}, step.Tallied (.borrow r)
          ({ s with registry }.mapSlot id (·.takenOver r.context now)) { marked := 1 } →
          step.Tallied (.borrow r) s {} := fun ht =>
        ht.after_mark ⟨fun _ => rfl, rfl⟩ rfl (lentSlots_mapSlot_le { s with registry } id _)
      dsimp only
      split
      · apply hmark
        apply tallied_close <;> rfl
      · exact hmark (tallied_lendTaken _ r owner h)
  · exact tallied_takeOver s r e others

theorem tallied_reuse (s : State) (r : Request) (e : Nat) :
    (reuse s r e).Tallied (.borrow r) s {} := by
  unfold reuse
  split
  · apply tallied_keep <;> rfl
  · exact tallied_takeOver s r e _

theorem tallied_resumeOwn (s : State) (r : Request) (e id : Nat) (h : Handle) (usable : Bool) :
    (resumeOwn s r e id h usable).Tallied (.borrow r) s {} := by
  have hrefused : FitsOf (.borrow r) (.done (.refused (.alreadyBorrowed r.identity r.context))) :=
    ⟨r, rfl⟩
  unfold resumeOwn
  split
  · refine .after_quiet ?_ (quiet_note s (.ownUnusable r.identity r.context) rfl rfl)
    apply tallied_close <;> rfl
  · split
    · exact tallied_keep s hrefused rfl
    · apply tallied_keep <;> rfl

theorem tallied_resumeOwnAgain (s : State) (now : Nat) (r : Request) (e id : Nat) (h : Handle)
    (usable : Bool) : (resumeOwnAgain s now r e id h usable).Tallied (.borrow r) s {} := by
  unfold resumeOwnAgain
  split
  · exact (tallied_lendReused _ r h).after_mark ⟨fun _ => rfl, rfl⟩ rfl
      (lentSlots_mapSlot_le s id _)
  · refine .after_quiet ?_ (quiet_note s (.ownOfAnotherKind r.identity r.context r.channel)
      rfl rfl)
    apply tallied_close <;> rfl

theorem tallied_borrow (s : State) (r : Request) : (borrow s r).Tallied (.borrow r) s {} := by
  unfold borrow
  split
  · exact tallied_reuse s r _
  · exact tallied_claim s r

/-! ### Sweeping -/

theorem lentSlots_releaseExpired (s : State) (now : Nat) (slots : List (ContextId × Nat)) :
    (releaseExpired s now slots).1.lentSlots + (releaseExpired s now slots).2 = s.lentSlots := by
  induction slots generalizing s with
  | nil => rfl
  | cons p slots ih =>
    obtain ⟨c, id⟩ := p
    rw [releaseExpired]
    split
    · rename_i hexpired
      have hlent : s.isLent id = true := by
        obtain ⟨x, hx, hall⟩ := (Option.any_eq_true ..).mp hexpired
        simp only [Bool.and_eq_true] at hall
        exact (Option.any_eq_true ..).mpr ⟨x, hx, hall.1.2⟩
      have hidle := lentSlots_markIdle s id now hlent
      have ih := ih (s.mapSlot id (·.markIdle now))
      dsimp only
      omega
    · exact ih s

theorem releaseExpired_silent (s : State) (now : Nat) (slots : List (ContextId × Nat)) :
    s.Silent (releaseExpired s now slots).1 ∧
      (releaseExpired s now slots).1.ledger = s.ledger := by
  induction slots generalizing s with
  | nil => exact ⟨⟨fun _ => rfl, rfl⟩, rfl⟩
  | cons p slots ih =>
    rw [releaseExpired]
    split
    · obtain ⟨hsilent, hledger⟩ := ih (s.mapSlot p.2 (·.markIdle now))
      exact ⟨⟨hsilent.verdicts, hsilent.reports⟩, hledger⟩
    · exact ih s

section sweeps
variable {w : Sweep} {rest : SweepRest} {cont : State → Sweep → Step}

theorem tallied_sweepSurplus (hfits : rest.after.Fits k)
    (hc : (cont s w).Tallied k s (w.tally rest)) (slots : List (ContextId × Nat)) :
    (sweepSurplus s w rest slots cont).Tallied k s (w.tally rest) := by
  unfold sweepSurplus
  split
  · exact hc
  · split
    · apply tallied_close
      · exact hfits
      · rfl
    · exact hc

theorem tallied_sweepIdle (hfits : rest.after.Fits k)
    (hc : (cont s w).Tallied k s (w.tally rest)) (slots : List (ContextId × Nat)) :
    (sweepIdle s w rest slots cont).Tallied k s (w.tally rest) := by
  unfold sweepIdle
  dsimp only
  split
  · apply tallied_close
    · exact hfits
    · rfl
  · exact tallied_sweepSurplus hfits hc _

/-- The state once the sweep of an identity is booked. -/
def Sweep.book (w : Sweep) (s : State) : State := s.count fun l => { l with
  evictedReleased := l.evictedReleased + w.report.released
  evictedClosed := l.evictedClosed + w.report.closed }

theorem evicted_book (s : State) (w : Sweep) (v : Verdict) :
    (w.book s).ledger.evicted v = s.ledger.evicted v + w.report.of v := by
  cases v <;> rfl

/-- The state once it is reported too, unless nothing was done. -/
def Sweep.publish (w : Sweep) (s : State) : State :=
  if w.report = {} then w.book s
  else (w.book s).note (.swept w.identity w.report (s.registry.entry w.entry).size)

theorem lentSlots_publish (s : State) (w : Sweep) : (w.publish s).lentSlots = s.lentSlots := by
  unfold Sweep.publish
  split <;> rfl

theorem evicted_publish (s : State) (w : Sweep) (v : Verdict) :
    (w.publish s).ledger.evicted v = s.ledger.evicted v + w.report.of v := by
  rw [← evicted_book, Sweep.publish]
  split <;> rfl

theorem audits_publish (s : State) (w : Sweep) :
    ∃ new, s.Audits (w.publish s) new ∧ ∀ v, sumOf (·.of v) new = w.report.of v := by
  have hevicted := evicted_publish s w
  unfold Sweep.publish at hevicted ⊢
  split
  · rename_i hnone
    have hzero : ∀ v, w.report.of v = 0 := fun v => by rw [hnone, SweepReport.of_empty]
    refine ⟨[], ⟨rfl, fun v => ?_, (List.append_nil _).symm⟩, fun v => (hzero v).symm⟩
    rw [evicted_book, hzero]
    rfl
  · rename_i hsome
    let n : Notice := .swept w.identity w.report (s.registry.entry w.entry).size
    have hreports : ((w.book s).note n).reports = s.reports ++ [w.report] :=
      reports_note (w.book s) n
    have hverdicts : ∀ v, ((w.book s).note n).verdicts v = s.verdicts v :=
      verdicts_note (w.book s) n
    refine ⟨[w.report], ⟨rfl, fun v => ?_, hreports⟩, fun v => rfl⟩
    rw [if_neg hsome] at hevicted
    rw [hevicted, State.evictions, State.evictions, hreports, hverdicts, sumOf_append, sumOf_cons,
      sumOf_nil]
    omega

theorem quiet_forget (s : State) (w : Sweep) :
    s.Quiet (if s.registry.isForgettable w.identity w.entry then
      { s with registry := s.registry.forget w.identity }.note (.forgot w.identity) else s) := by
  split
  · exact (quiet_registry s _).trans (quiet_note _ _ rfl rfl)
  · exact .refl s

theorem Step.Tallied.after_sweep (hfits : rest.after.Fits k)
    (ht : step.Tallied k (endSweep s w)
      { report := rest.after.reported (rest.total.merge w.report) }) :
    step.Tallied k s (w.tally rest) := by
  obtain ⟨new, haudits, hnew⟩ := audits_publish s w
  have hpublished : step.Tallied k (w.publish s)
      { report := rest.after.reported (rest.total.merge w.report) } :=
    ht.after_quiet (quiet_forget (w.publish s) w)
  have hreleased : (w.publish s).ledger.evictedReleased =
      s.ledger.evictedReleased + w.report.released := evicted_publish s w .release
  refine hpublished.after haudits rfl (fun hk v => ?_) ?_
  · rw [hnew]
    show (rest.after.reported _).of v = (rest.after.reported rest.total).of v + w.report.of v
    cases hafter : rest.after with
    | report => exact SweepReport.of_merge _ _ v
    | tick observers =>
      rw [hafter] at hfits
      exact absurd hfits hk
  · dsimp only [Sweep.tally]
    rw [lentSlots_publish, hreleased]
    omega

theorem tallied_sweepAll {after : AfterSweep} {cont : State → SweepReport → Step}
    (hfits : after.Fits k)
    (hc : ∀ s total, (cont s total).Tallied k s { report := after.reported total })
    (entries : List (Identity × Nat)) (s : State) (total : SweepReport) :
    (sweepAll now after cont s total entries).Tallied k s { report := after.reported total } := by
  induction entries generalizing s total with
  | nil => exact hc s total
  | cons p entries ih =>
    obtain ⟨i, e⟩ := p
    obtain ⟨hsilent, hledger⟩ := releaseExpired_silent s now (s.slotsOf e)
    have hlent := lentSlots_releaseExpired s now (s.slotsOf e)
    let s₁ := (releaseExpired s now (s.slotsOf e)).1
    let rest : SweepRest := ⟨entries, total, after⟩
    let w : Sweep := ⟨i, e, now, { released := (releaseExpired s now (s.slotsOf e)).2 }⟩
    have hsweep : (sweepIdle s₁ w rest (s₁.slotsOf e) fun s w =>
        sweepAll now after cont (endSweep s w) (total.merge w.report) entries).Tallied k s₁
        (w.tally rest) :=
      tallied_sweepIdle hfits (.after_sweep hfits (ih (endSweep s₁ w) (total.merge w.report))) _
    -- what the first pass takes back is lent no more, but booked at the end of the sweep only
    refine hsweep.after (hsilent.audits hledger) rfl (fun _ _ => rfl) ?_
    dsimp only [s₁, w, Sweep.tally]
    rw [hledger]
    omega

end sweeps

/-! ### Giving back -/

theorem tallied_release (s : State) (now : Nat) (i : Identity) (c : ContextId) :
    (release s now i c).Tallied (.release i c) s {} := by
  unfold release
  split
  · rename_i id _
    have hidle : ∀ x : Slot, (x.markIdle now).borrowed → x.borrowed := fun _ h => nomatch h
    have hlent := lentSlots_mapSlot_of_imp s id hidle
    have hsilent := silent_count (s.mapSlot id (·.markIdle now))
      (fun l => { l with released := l.released + 1 }) (.released i c) rfl rfl
    exact tallied_done ⟨i, c, rfl⟩ ⟨hsilent.verdicts, hsilent.reports⟩
      ⟨rfl, rfl, rfl, rfl, rfl, rfl, rfl⟩ (fun v => by cases v <;> rfl) rfl
      (Nat.add_le_add_right hlent _)
  · exact tallied_done ⟨i, c, rfl⟩ (quiet_note s _ rfl rfl).toSilent
      ⟨rfl, rfl, rfl, rfl, rfl, rfl, rfl⟩ (fun _ => rfl) rfl (Nat.le_refl _)

theorem tallied_closeOwn (s : State) (i : Identity) (c : ContextId) :
    (closeOwn s i c).Tallied (.close i c) s {} := by
  unfold closeOwn
  split
  · apply tallied_close
    · exact ⟨i, c, rfl⟩
    · rfl
  · exact tallied_done ⟨i, c, rfl⟩ (quiet_note s _ rfl rfl).toSilent
      ⟨rfl, rfl, rfl, rfl, rfl, rfl, rfl⟩ (fun _ => rfl) rfl (Nat.le_refl _)

theorem tallied_closeEntries (s : State) (closed : Nat) (entries : List (Identity × Nat)) :
    (closeEntries s closed entries).Tallied .closeAll s {} := by
  induction entries with
  | nil =>
    exact tallied_done rfl (quiet_note s _ rfl rfl).toSilent
      ⟨rfl, rfl, rfl, rfl, rfl, rfl, rfl⟩ (fun _ => rfl) rfl (Nat.le_refl _)
  | cons p entries ih =>
    rw [closeEntries]
    split
    · apply tallied_close <;> rfl
    · exact ih

theorem tallied_closeAll (s : State) : (closeAll s).Tallied .closeAll s {} :=
  (tallied_closeEntries _ 0 _).after_quiet (quiet_registry s _)

/-! ### Telling observers -/

theorem audits_inspected {v : Verdict} {i : Identity} {c : ContextId} {n : Notice}
    (hv : n.verdict? = none) (hr : n.report? = none) (hjournal : s'.journal = s.journal)
    (hledger : s'.ledger = { s.ledger with
      evictedReleased := s'.ledger.evictedReleased
      evictedClosed := s'.ledger.evictedClosed })
    (hevicted : ∀ w, s'.ledger.evicted w = s.ledger.evicted w + if v = w then 1 else 0) :
    s.Audits ((s'.note n).note (.inspected i c v)) [] := by
  have hquiet := quiet_note s' n hv hr
  have hreports : ((s'.note n).note (.inspected i c v)).reports = s.reports := by
    rw [reports_note, hquiet.reports, State.reports, hjournal]
    exact List.append_nil _
  have hverdicts : ∀ w, ((s'.note n).note (.inspected i c v)).verdicts w =
      s.verdicts w + if v = w then 1 else 0 := by
    intro w
    rw [verdicts_note, hquiet.verdicts, State.verdicts, hjournal]
    simp only [Notice.verdict?, Option.some.injEq]
    rfl
  refine ⟨hledger, fun w => ?_, by rw [hreports, List.append_nil]⟩
  have hbooked : ((s'.note n).note (.inspected i c v)).ledger.evicted w =
      s.ledger.evicted w + if v = w then 1 else 0 := hevicted w
  rw [hbooked, State.evictions, State.evictions, hreports, hverdicts]
  omega

theorem audits_inspect {a : Announcement} (hs : inspect s now a = (s', none)) :
    s.Audits s' [] ∧ s'.lentSlots + s'.ledger.evictedReleased =
      s.lentSlots + s.ledger.evictedReleased := by
  have hkeep : s.Audits s [] := (State.Quiet.refl s).toSilent.audits rfl
  unfold inspect at hs
  split at hs
  · cases hs
    exact ⟨hkeep, rfl⟩
  · rename_i c _
    split at hs
    · rename_i hverdict
      obtain ⟨x, hx, hverdict⟩ := Option.map_eq_some_iff.mp hverdict
      have hlent : s.isLent c.slot = true :=
        (Option.any_eq_true ..).mpr ⟨x, hx, (RetentionPolicy.verdict_eq_release hverdict).1⟩
      have hidle := lentSlots_markIdle s c.slot now hlent
      cases hs
      refine ⟨audits_inspected rfl rfl rfl rfl fun w => by cases w <;> rfl, ?_⟩
      show (s.mapSlot c.slot (·.markIdle now)).lentSlots + (s.ledger.evictedReleased + 1) = _
      omega
    · cases hs
    · cases hs
      exact ⟨hkeep, rfl⟩

theorem Step.Tallied.after_inspection {a : Announcement}
    (ht : step.Tallied k (afterInspection s a) {}) : step.Tallied k s {} := by
  have haudits : s.Audits (afterInspection s a) [] :=
    audits_inspected rfl rfl rfl rfl fun w => by cases w <;> rfl
  exact ht.after haudits rfl (fun _ _ => rfl) (Nat.le_refl _)

theorem tallied_perform {t : Telling} (hk : k.telling? = some t) (s : State) :
    (perform s now t).Tallied k s {} := by
  obtain ⟨a, purpose⟩ := t
  cases k with
  | borrow r =>
    cases hk
    exact tallied_borrow s r
  | release i c =>
    cases hk
    exact tallied_release s now i c
  | close i c =>
    cases hk
    exact tallied_closeOwn s i c
  | tell a =>
    cases hk
    apply tallied_keep
    · exact .inr ⟨a, rfl⟩
    · rfl
  | tick | sweep | closeAll => cases hk

theorem tallied_tell {t : Telling} (hk : k.telling? = some t) (observers : List Observer)
    (s : State) : (tell now t s observers).Tallied k s {} := by
  induction observers generalizing s with
  | nil => exact tallied_perform hk s
  | cons o observers ih =>
    cases o with
    | log =>
      refine (ih _).after_quiet ?_
      exact (quiet_note s (.managerCall t.announcement) rfl rfl).trans (quiet_summarize _)
    | inspector =>
      rw [tell]
      split
      · rename_i s' c hs
        obtain ⟨rfl, -⟩ := inspect_eq_some hs
        -- the verdict to close is booked when the disconnect has ended
        apply tallied_close
        · exact hk
        · rfl
      · rename_i s' hs
        obtain ⟨haudits, hlent⟩ := audits_inspect hs
        refine (ih s').after haudits rfl (fun _ _ => rfl) ?_
        dsimp only
        omega
    | poolInspector => exact ih s
    | recorder o =>
      apply tallied_keep
      · exact hk
      · rfl

theorem tallied_tick (observers : List Observer) (s : State) :
    (tick now s observers).Tallied .tick s {} := by
  induction observers generalizing s with
  | nil =>
    apply tallied_keep
    · exact .inl rfl
    · rfl
  | cons o observers ih =>
    cases o with
    | log => exact (ih _).after_quiet (quiet_summarize s)
    | inspector =>
      have hfits : (AfterSweep.tick observers).Fits .tick := rfl
      exact tallied_sweepAll hfits (fun s _ => ih s) _ s {}
    | poolInspector => exact ih s
    | recorder o =>
      rw [tick]
      split
      · apply tallied_keep <;> rfl
      · exact ih s

theorem tallied_continue {after : AfterSweep} (hfits : after.Fits k) (s : State)
    (total : SweepReport) :
    (after.continue now s total).Tallied k s { report := after.reported total } := by
  cases after with
  | report =>
    apply tallied_keep
    · exact hfits
    · rfl
  | tick observers =>
    obtain rfl : k = .tick := hfits
    exact tallied_tick observers s

theorem tallied_sweepRest {w : Sweep} {rest : SweepRest} (hfits : rest.after.Fits k) (s : State) :
    (rest.continue now s w).Tallied k s (w.tally rest) :=
  .after_sweep hfits (tallied_sweepAll hfits (tallied_continue hfits) _ _ _)

/-! ### Going on after a closing -/

theorem AfterClosing.tally_failed (after : AfterClosing) : after.tally.failed = 0 := by
  cases after <;> rfl

theorem Step.Tallied.after_finish {c : Closing} {failure : Option LeaseError}
    (ht : step.Tallied k (s.finishClosing c failure) due) (hnone : due.failed = 0) :
    step.Tallied k s { due with failed := if failure.isSome then 1 else 0 } := by
  let removed (t : State) : State := { t.mapSlot c.slot (fun x => { x with borrowed := false }) with
    registry := t.registry.detach c.entry c.owner c.slot }
  have hremove : ∀ t : State, t.Quiet ((removed t).note (.removed c.identity c.owner)) := by
    intro t
    have hquiet := quiet_note (removed t) (.removed c.identity c.owner) rfl rfl
    exact ⟨⟨hquiet.verdicts, hquiet.reports⟩, rfl,
      lentSlots_mapSlot_of_imp t c.slot fun _ h => nomatch h⟩
  cases failure with
  | none =>
    have hdue : { due with failed := 0 } = due := by rw [← hnone]
    rw [Option.isSome_none, if_neg Bool.false_ne_true, hdue]
    exact ht.after_quiet (hremove s)
  | some e =>
    -- the failure is the one thing booked here, so the other fields are those of the rest
    have hcounted := ht.after_quiet (hremove _)
    have hsilent := silent_count s
      (fun l => { l with disconnectFailures := l.disconnectFailures + 1 })
      (.disconnectFailed c.identity c.owner e) rfl rfl
    obtain ⟨hborrowed, hserved, hcreated, hreleased, hclosed, hover, hfailures⟩ := hcounted.books
    rw [hnone] at hfailures
    exact {
      fits := hcounted.fits
      books := ⟨hborrowed, hserved, hcreated, hreleased, hclosed, hover, hfailures⟩
      evicted := fun v => by
        have hevicted := hcounted.evicted v
        rw [hsilent.evictions] at hevicted
        cases v <;> exact hevicted
      reports := by
        rw [← hsilent.reports]
        exact hcounted.reports
      reported := fun hk v => by
        rw [← hsilent.reports]
        exact hcounted.reported hk v
      lent := hcounted.lent }

theorem tallied_resumeClosing {after : AfterClosing} (hfits : after.Fits k) (s : State)
    (c : Closing) : (resumeClosing s now c after).Tallied k s after.tally := by
  cases after with
  | inspected observers t => exact (tallied_tell hfits observers _).after_inspection
  | ownUseless r e =>
    obtain rfl : k = .borrow r := hfits
    exact tallied_takeOver s r e _
  | displacedByTaken r source taken =>
    obtain rfl : k = .borrow r := hfits
    exact tallied_lendTaken s r source taken
  | displacedByOpened r opened =>
    obtain rfl : k = .borrow r := hfits
    exact tallied_lendOpened s r opened
  | requested =>
    exact tallied_done hfits ⟨fun _ => rfl, rfl⟩ ⟨rfl, rfl, rfl, rfl, rfl, rfl, rfl⟩
      (fun v => by cases v <;> rfl) rfl (Nat.le_refl _)
  | drained slots entries closed =>
    obtain rfl : k = .closeAll := hfits
    rw [resumeClosing]
    split
    · apply tallied_close <;> rfl
    · exact tallied_closeEntries s _ entries
  | sweptIdle w slots rest => exact tallied_sweepIdle hfits (tallied_sweepRest hfits s) slots
  | sweptSurplus w slots rest => exact tallied_sweepSurplus hfits (tallied_sweepRest hfits s) slots

/-! ### The machine -/

theorem tallied_start (s : State) (now : Nat) (k : Command) : (start s now k).Tallied k s {} := by
  cases k with
  | borrow r => exact tallied_tell rfl _ s
  | release i c => exact tallied_tell rfl _ s
  | close i c => exact tallied_tell rfl _ s
  | tell a => exact tallied_tell rfl _ s
  | tick => exact tallied_tick _ s
  | sweep =>
    have hfits : AfterSweep.report.Fits .sweep := rfl
    exact tallied_sweepAll hfits (tallied_continue hfits) _ s {}
  | closeAll => exact tallied_closeAll s

theorem tallied_resume {f : Frame} (hfits : f.Fits k) (s : State) (now : Nat) (a : f.call.Answer) :
    (resume s now f a).Tallied k s (f.due a) := by
  cases f with
  | telling o observers t => exact tallied_tell hfits observers s
  | ticking o observers =>
    obtain rfl : k = .tick := hfits
    exact tallied_tick observers s
  | checkingOwn r e id h =>
    obtain rfl : k = .borrow r := hfits
    exact tallied_resumeOwn s r e id h a
  | recheckingOwn r e id h =>
    obtain rfl : k = .borrow r := hfits
    exact tallied_resumeOwnAgain s now r e id h a
  | checkingOther r e owner id h others =>
    obtain rfl : k = .borrow r := hfits
    exact tallied_resumeOther s now r e owner id h others a
  | opening r e produces timeout =>
    obtain rfl : k = .borrow r := hfits
    exact tallied_resumeOpening s now r e produces timeout a
  | closing c after =>
    exact (tallied_resumeClosing hfits (s.finishClosing c a) c).after_finish after.tally_failed

end tallied

end Affine

end ConnectionLeasing

import ConnectionLeasing.Proofs.Affine.Audit
import Mathlib.Data.List.Nodup
import Mathlib.Data.List.Perm.Subperm

/-!
# How often borrows end

A slot is lent by a borrow, and back idle when it is released, or taken back after too long. An
inspection and a sweep look whether the slot is lent; a release does not.

* `Step.Frees`: a release that finds its slot lent leaves one slot less lent.
* `System.Settles`: slots that are lent, borrows that timed out and releases are together no more
  than the borrows and the releases of idle slots.
* `borrowed_le_lentSlots`: the slots that the registry shows as borrowed are among those lent.
* `ends_counted`: the same of the metrics, whenever nothing is in progress.
-/

namespace ConnectionLeasing.Affine

/-- Whether the slot of a context is lent. -/
def State.lends (s : State) (i : Identity) (c : ContextId) : Bool :=
  (s.registry.slot? i c).any s.isLent

/-- In one move a release was served for a slot that was idle already, or was found lent for too
long by the inspection in it. -/
def System.ReleasesIdle (m m' : System) : Prop :=
  ∃ i c seen, m'.events = m.events ++ seen ++ [.returned (.release i c) (.released true)] ∧
    (m.state.lends i c = false ∨ m.state.ledger.evictedReleased < m'.state.ledger.evictedReleased)

theorem System.ReleasesIdle.last {m m' : System} (h : m.ReleasesIdle m') :
    m'.events.getLast?.any Event.isReleased = true := by
  obtain ⟨i, c, seen, hevents, -⟩ := h
  rw [hevents, List.getLast?_append]
  rfl

theorem System.releasesIdle_of_shown {m m' : System} {seen : List Event} {e : Event}
    (hevents : m'.events = m.events ++ seen ++ [e]) (hreleased : e.isReleased = true)
    (hevicted : m.state.ledger.evictedReleased < m'.state.ledger.evictedReleased) :
    m.ReleasesIdle m' := by
  unfold Event.isReleased at hreleased
  split at hreleased
  · exact ⟨_, _, seen, hevents, .inr hevicted⟩
  · cases hreleased

/-- A run, with how often a release was served for a slot that was idle already. -/
inductive Counted (may : Overlap) : System → Nat → Prop
  | initial (settings : ManagerSettings) (factory : Factory) (now : Nat) :
      Counted may (.initial settings factory now) 0
  | idle {m m' : System} {n : Nat} {k : Option Command} (hm : Counted may m n)
      (hmove : Moves may m k m') (hidle : m.ReleasesIdle m') : Counted may m' (n + 1)
  | other {m m' : System} {n : Nat} {k : Option Command} (hm : Counted may m n)
      (hmove : Moves may m k m') (hother : ¬ m.ReleasesIdle m') : Counted may m' n

theorem Counted.reachable {may : Overlap} {m : System} {n : Nat} (hm : Counted may m n) :
    Reachable may m := by
  induction hm with
  | initial settings factory now => exact .initial settings factory now
  | idle _ hmove _ ih | other _ hmove _ ih => exact .next ih hmove

theorem Reachable.counted {may : Overlap} {m : System} (hm : Reachable may m) :
    ∃ n, Counted may m n := by
  induction hm with
  | initial settings factory now => exact ⟨0, .initial settings factory now⟩
  | @next m m' k _ hmove ih =>
    obtain ⟨n, hm⟩ := ih
    by_cases hidle : m.ReleasesIdle m'
    · exact ⟨n + 1, .idle hm hmove hidle⟩
    · exact ⟨n, .other hm hmove hidle⟩

/-! ### A release takes its slot back -/

/-- What a release does to the slots that are lent, up to its end. -/
structure Step.Frees (step : Step) (s : State) (i : Identity) (c : ContextId) : Prop where
  grows : s.ledger.evictedReleased ≤ step.1.ledger.evictedReleased
  lent : step.1.lentSlots ≤ s.lentSlots
  /-- If its slot is lent and not taken back on the way, one slot less is lent in the end. -/
  frees : step.2 = .done (.released true) → s.lends i c = true →
    step.1.ledger.evictedReleased = s.ledger.evictedReleased → step.1.lentSlots < s.lentSlots

section frees
variable {s s' : State} {step : Step} {now : Nat} {i : Identity} {c : ContextId}

theorem frees_keep (s : State) {next : Progress Frame Result} (h : next ≠ .done (.released true)) :
    Step.Frees (s, next) s i c :=
  ⟨Nat.le_refl _, Nat.le_refl _, fun hdone => absurd hdone h⟩

theorem frees_close (s : State) (x : Closing) (after : AfterClosing) :
    (s.close x after).Frees s i c :=
  ⟨Nat.le_refl _, (quiet_beginClosing s x).lent, fun h => by cases h⟩

theorem Step.Frees.after_written (h : step.Frees s' i c) (hs : s.SameTables s')
    (hledger : s'.ledger = s.ledger) : step.Frees s i c := by
  obtain ⟨_, _, _, rfl⟩ := hs
  obtain ⟨hgrows, hlent, hfrees⟩ := h
  rw [hledger] at hgrows hfrees
  exact ⟨hgrows, hlent, hfrees⟩

theorem frees_release (s : State) (now : Nat) (i : Identity) (c : ContextId) :
    (release s now i c).Frees s i c := by
  unfold release
  split
  · rename_i id hid
    obtain ⟨id', hslot, hmap⟩ := Option.bind_eq_some_iff.mp hid
    obtain ⟨h, -, rfl⟩ := Option.map_eq_some_iff.mp hmap
    have hidle : ∀ x : Slot, (x.markIdle now).borrowed → x.borrowed := fun _ h => nomatch h
    refine ⟨Nat.le_refl _, lentSlots_mapSlot_of_imp s id' hidle, fun _ hlends _ => ?_⟩
    rw [State.lends, hslot] at hlends
    exact Nat.le_of_eq (lentSlots_markIdle s id' now hlends)
  · exact ⟨Nat.le_refl _, Nat.le_refl _, fun h => by cases h⟩

/-- An inspection that closes nothing has done nothing, or taken a slot back and counted it. -/
theorem inspect_eq_none {a : Announcement} (hs : inspect s now a = (s', none)) :
    s' = s ∨ s'.ledger.evictedReleased = s.ledger.evictedReleased + 1 := by
  unfold inspect at hs
  split at hs
  · cases hs
    exact .inl rfl
  · split at hs
    · cases hs
      exact .inr rfl
    · cases hs
    · cases hs
      exact .inl rfl

theorem frees_tell (observers : List Observer) (s : State) :
    (tell now ⟨⟨.release, i, c⟩, .release⟩ s observers).Frees s i c := by
  induction observers generalizing s with
  | nil => exact frees_release s now i c
  | cons o observers ih =>
    cases o with
    | log =>
      have hquiet := quiet_summarize (s.note (.managerCall ⟨.release, i, c⟩))
      exact (ih _).after_written ((State.SameTables.note s _).trans (.summarize _)) hquiet.ledger
    | inspector =>
      rw [tell]
      split
      · rename_i s' x hs
        obtain ⟨rfl, -⟩ := inspect_eq_some hs
        exact frees_close s' x _
      · rename_i s' hs
        obtain ⟨-, hlent⟩ := audits_inspect hs
        obtain ⟨hgrows, hrest, hfrees⟩ := ih s'
        -- a slot that the inspection takes back shows in the ledger
        rcases inspect_eq_none hs with rfl | htaken
        · exact ⟨hgrows, hrest, hfrees⟩
        · refine ⟨by omega, by omega, fun _ _ hsame => ?_⟩
          omega
    | poolInspector => exact ih s
    | recorder o => exact frees_keep s fun h => by cases h

theorem lends_finishClosing {x : Closing} (failure : Option LeaseError) {id : Nat}
    (hslot : s.registry.slot? i c = some id) (hlent : s.isLent id = true) (hid : x.slot ≠ id) :
    (s.finishClosing x failure).lends i c = true := by
  obtain ⟨e, he, hslot⟩ := Option.bind_eq_some_iff.mp hslot
  have hkept : (s.finishClosing x failure).slotIn? e c = some id := by
    rw [State.slotIn?_finishClosing, if_neg fun h => hid ?_]
    · exact hslot
    · exact Option.some.inj (h.2.2.symm.trans hslot)
  have hknown : (s.finishClosing x failure).registry.entryId? i = some e := by
    rw [State.registry_finishClosing]
    exact he
  have hstays : (s.finishClosing x failure).isLent id = true := by
    rw [State.isLent, State.slot?_finishClosing, State.slot?_mapSlot_of_ne s _ hid]
    exact hlent
  rw [State.lends, Registry.slot?_entry hknown]
  exact (Option.any_eq_true ..).mpr ⟨id, hkept, hstays⟩

theorem Step.Frees.after_finish {x : Closing} {failure : Option LeaseError}
    {a : Announcement} (h : step.Frees (afterInspection (s.finishClosing x failure) a) i c) :
    step.Frees s i c := by
  have hledger : (afterInspection (s.finishClosing x failure) a).ledger.evictedReleased =
      s.ledger.evictedReleased := by
    cases failure <;> rfl
  have hslots : (afterInspection (s.finishClosing x failure) a).lentSlots =
      (s.mapSlot x.slot fun y => { y with borrowed := false }).lentSlots := by
    show (s.finishClosing x failure).slots.countP (·.borrowed) = _
    rw [State.slots_finishClosing]
    rfl
  have hnone : ∀ y : Slot, ({ y with borrowed := false } : Slot).borrowed → y.borrowed :=
    fun _ h => by cases h
  have hfewer := lentSlots_mapSlot_of_imp s x.slot hnone
  obtain ⟨hgrows, hlent, hfrees⟩ := h
  rw [hledger] at hgrows hfrees
  rw [hslots] at hlent hfrees
  refine ⟨hgrows, Nat.le_trans hlent hfewer, fun hdone hlends hsame => ?_⟩
  obtain ⟨id, hslot, hisLent⟩ := (Option.any_eq_true ..).mp hlends
  -- the slot that is lent is the one that was closed, or it stays with its context
  by_cases hid : x.slot = id
  · have hidle := lentSlots_mapSlot_idle s x.slot (by rw [hid]; exact hisLent) fun y =>
      (rfl : ({ y with borrowed := false } : Slot).borrowed = false)
    omega
  · exact Nat.lt_of_lt_of_le
      (hfrees hdone (lends_finishClosing failure hslot hisLent hid) hsame) hfewer

theorem frees_resume {f : Frame} (hfits : f.Fits (.release i c)) (s : State) (now : Nat)
    (a : f.call.Answer) : (resume s now f a).Frees s i c := by
  cases f with
  | telling o observers t =>
    cases hfits
    exact frees_tell observers s
  | closing x after =>
    cases after with
    | inspected observers t =>
      cases hfits
      exact (frees_tell observers _).after_finish
    | ownUseless | displacedByTaken | displacedByOpened | drained => cases hfits
    | requested => obtain ⟨i, c, h⟩ := hfits; cases h
    | sweptIdle w slots rest | sweptSurplus w slots rest =>
      obtain ⟨entries, total, after⟩ := rest
      cases after <;> cases hfits
  | ticking | checkingOwn | recheckingOwn | checkingOther | opening => cases hfits

theorem frees_start (s : State) (now : Nat) (i : Identity) (c : ContextId) :
    (start s now (.release i c)).Frees s i c :=
  frees_tell s.observers s

end frees

/-! ### What is lent and what has ended -/

theorem Frame.tally_of_release {f : Frame} {i : Identity} {c : ContextId}
    (hfits : f.Fits (.release i c)) : f.tally = {} := by
  cases f with
  | closing x after =>
    cases after with
    | inspected => rfl
    | ownUseless | displacedByTaken | displacedByOpened | drained => cases hfits
    | requested => obtain ⟨i, c, h⟩ := hfits; cases h
    | sweptIdle w slots rest | sweptSurplus w slots rest =>
      obtain ⟨entries, total, after⟩ := rest
      cases after <;> cases hfits
  | telling => rfl
  | ticking | checkingOwn | recheckingOwn | checkingOther | opening => cases hfits

section moves
variable {may : Overlap} {m m' : System} {k : Option Command} {n : Nat}

theorem shown_eq_returned {k k' : Command} {p : Progress Frame Result} {r : Result}
    (h : shown k p = .returned k' r) : k = k' ∧ p = .done r := by
  cases p with
  | paused f => cases h
  | done r' =>
    cases h
    exact ⟨rfl, rfl⟩

/-- A release that finds its slot lent takes it back. -/
theorem Moves.frees (hfits : ∀ o ∈ m.ongoing, o.frame.Fits o.command) (hmove : Moves may m k m')
    (i : Identity) (c : ContextId) (seen : List Event)
    (hevents : m'.events = m.events ++ seen ++ [.returned (.release i c) (.released true)])
    (hother : ¬ m.ReleasesIdle m') : m'.state.lentSlots < m.state.lentSlots ∧
      m'.state.ledger.evictedReleased = m.state.ledger.evictedReleased := by
  have hlends : m.state.lends i c = true :=
    eq_true_of_ne_false fun hidle => hother ⟨i, c, seen, hevents, .inl hidle⟩
  have hle : m'.state.ledger.evictedReleased ≤ m.state.ledger.evictedReleased :=
    Nat.le_of_not_lt fun hlt => hother ⟨i, c, seen, hevents, .inr hlt⟩
  have hmoved : m'.events.length ≠ m.events.length := by
    rw [hevents, List.length_append, List.length_append, List.length_singleton]
    omega
  cases hmove with
  | start k hk =>
    have hlast := congrArg List.getLast? hevents
    simp only [System.started, System.moved, List.getLast?_append, List.getLast?_singleton,
      Option.some_or, Option.some.injEq] at hlast
    obtain ⟨rfl, hdone⟩ := shown_eq_returned hlast
    have hfrees := frees_start m.state m.now i c
    have hsame := Nat.le_antisymm hle hfrees.grows
    exact ⟨hfrees.frees hdone hlends hsame, hsame⟩
  | resume before o later a hm ho ha =>
    have hlast := congrArg List.getLast? hevents
    simp only [System.resumed, System.moved, List.getLast?_append, List.getLast?_singleton,
      Option.some_or, Option.some.injEq] at hlast
    obtain ⟨hk, hdone⟩ := shown_eq_returned hlast
    have hfit : o.frame.Fits (.release i c) := hk ▸ hfits o (by rw [hm]; simp)
    have hfrees := frees_resume hfit m.state m.now a
    have hsame := Nat.le_antisymm hle hfrees.grows
    exact ⟨hfrees.frees hdone hlends hsame, hsame⟩
  | fail | attach | pass => exact absurd rfl hmoved

/-- What is lent and what has ended were borrowed, or released while idle; a borrow that waits to
be booked has lent a slot, and a sweep that does has taken slots back. -/
def System.Settles (m : System) (n : Nat) : Prop :=
  m.state.lentSlots + m.state.ledger.evictedReleased +
      sumOf (·.frame.tally.expired) m.ongoing + m.state.ledger.released ≤
    m.state.ledger.borrowed + sumOf (·.frame.tally.marked) m.ongoing + n

theorem released_of_tally (p : Progress Frame Result) :
    (tally p).released = 0 ∨ (tally p).released = 1 ∧ p = .done (.released true) := by
  cases p with
  | paused f =>
    cases f with
    | closing x after => cases after <;> exact .inl rfl
    | telling | ticking | checkingOwn | recheckingOwn | checkingOther | opening => exact .inl rfl
  | done r =>
    cases r with
    | released held => cases held <;> simp [tally, Result.tally]
    | lent | refused | closed | swept | closedAll | told => exact .inl rfl

theorem System.Settles.moved {k : Command} {seen : List Event} {waiting rest : List Ongoing}
    {step : Step} {due : Tally} {more : Nat} (h : m.Settles n) (ht : step.Tallied k m.state due)
    (howed : due.Owed seen waiting) (hwaiting : ∀ o ∈ waiting, o.command = k ∧ o.frame.Fits k)
    (hsplit : ∀ f, sumOf f m.ongoing = sumOf f waiting + sumOf f rest)
    (hmore : step.2 = .done (.released true) → 1 ≤ more ∨
      step.1.lentSlots < m.state.lentSlots ∧
        step.1.ledger.evictedReleased = m.state.ledger.evictedReleased) :
    (m.moved k seen rest step).Settles (n + more) := by
  have hshows := shows_of_fits ht.fits
  have hlent := ht.lent
  have hreleased := ht.books.released
  rw [howed.marked, howed.expired, hshows.marked, hshows.expired] at hlent
  rw [System.Settles, hsplit, hsplit] at h
  show step.1.lentSlots + step.1.ledger.evictedReleased +
      sumOf (·.frame.tally.expired) (left k step.2 ++ rest) + step.1.ledger.released ≤
    step.1.ledger.borrowed + sumOf (·.frame.tally.marked) (left k step.2 ++ rest) + (n + more)
  rw [sumOf_append, sumOf_append]
  rcases released_of_tally step.2 with hnone | ⟨hone, hdone⟩
  · omega
  · rcases hmore hdone with hmore | ⟨hfewer, hsame⟩
    · omega
    · -- a release books nothing else, neither in this move nor in the ones before
      have hfits := ht.fits
      rw [hdone] at hfits
      obtain ⟨i, c, rfl⟩ := hfits
      have hborrowed := ht.books.borrowed
      have hwaits : ∀ o ∈ waiting, o.frame.tally = {} := fun o ho =>
        Frame.tally_of_release (hwaiting o ho).2
      have hmarked : sumOf (·.frame.tally.marked) waiting = 0 :=
        sumOf_eq_zero _ fun o ho => by rw [hwaits o ho]
      have hexpired : sumOf (·.frame.tally.expired) waiting = 0 :=
        sumOf_eq_zero _ fun o ho => by rw [hwaits o ho]
      rw [hdone] at hborrowed ⊢
      have hbooked : step.1.ledger.borrowed = m.state.ledger.borrowed := hborrowed
      simp only [left, sumOf_nil]
      omega

theorem System.Settles.next (h : m.Settles n) (more : Nat)
    (hfits : ∀ o ∈ m.ongoing, o.frame.Fits o.command) (hmove : Moves may m k m')
    (hmore : 1 ≤ more ∨ ¬ m.ReleasesIdle m') : m'.Settles (n + more) := by
  have hfrees := hmove.frees hfits
  cases hmove.booking hfits with
  | @operation k seen waiting rest step due ht howed hwaiting hrest hsplit =>
    refine h.moved ht howed hwaiting hsplit fun hdone => hmore.imp_right fun hother => ?_
    obtain ⟨i, c, rfl⟩ : ∃ i c, k = .release i c := by
      have hfits := ht.fits
      rwa [hdone] at hfits
    refine hfrees i c seen ?_ hother
    show m.events ++ seen ++ [shown _ step.2] = _
    rw [hdone]
    rfl
  | @idle _ _ gone hledger hslots hjournal hevents hgone hrest hsplit =>
    have hmarked : sumOf (·.frame.tally.marked) gone = 0 :=
      sumOf_eq_zero _ fun o ho => by rw [hgone o ho]
    have hexpired : sumOf (·.frame.tally.expired) gone = 0 :=
      sumOf_eq_zero _ fun o ho => by rw [hgone o ho]
    have hlent : m'.state.lentSlots = m.state.lentSlots := by rw [State.lentSlots, hslots]; rfl
    rw [System.Settles, hsplit, hsplit] at h
    rw [System.Settles, hledger, hlent]
    omega

theorem Counted.settles (hm : Counted may m n) : m.Settles n := by
  induction hm with
  | initial settings factory now => exact Nat.le_refl 0
  | idle hm hmove _ ih => exact ih.next 1 hm.reachable.fits hmove (.inl (Nat.le_refl 1))
  | other hm hmove hother ih => exact ih.next 0 hm.reachable.fits hmove (.inr hother)

end moves

/-! ### What the registry shows as borrowed -/

/-- The numbers of all registered slots. -/
def State.registered (s : State) : List Nat :=
  s.registry.known.flatMap fun p => (s.slotsOf p.2).map (·.2)

theorem borrowedConnections_eq (s : State) :
    s.metrics.borrowedConnections = s.registered.countP s.isLent := by
  have hall : ∀ known : List (Identity × Nat), IdentityStatistics.total (·.borrowed)
      (known.map fun p => s.registry.statisticsOf s.slots p.1 p.2) =
        (known.flatMap fun p => (s.slotsOf p.2).map (·.2)).countP s.isLent := by
    intro known
    induction known with
    | nil => rfl
    | cons p known ih =>
      rw [List.map_cons, IdentityStatistics.total, ih, List.flatMap_cons, List.countP_append,
        List.countP_map]
      rfl
  exact hall s.registry.known

theorem Stage.Indexed.nodup_registered {g : Stage} (hg : g.Indexed)
    (once : ∀ {e c e' c' id}, g.state.slotIn? e c = some id → g.state.slotIn? e' c' = some id →
      e' = e ∧ c' = c) : g.state.registered.Nodup := by
  have hslot : ∀ {e c id}, (c, id) ∈ g.state.slotsOf e → g.state.slotIn? e c = some id :=
    fun hmem => Registry.slotIn?_of_mem hg.keys hmem
  refine List.nodup_flatMap.mpr ⟨fun p _ => ?_, ?_⟩
  · refine List.Nodup.map_on ?_ (List.Nodup.of_map _ (hg.keys p.2))
    rintro ⟨c, id⟩ hc ⟨c', id'⟩ hc' rfl
    rw [(once (hslot hc) (hslot hc')).2]
  · have hknown := List.Nodup.of_map _ hg.known
    refine List.Pairwise.imp_of_mem ?_ hknown
    intro p q hp hq hne id hid hid'
    obtain ⟨⟨c, _⟩, hc, rfl⟩ := List.mem_map.mp hid
    obtain ⟨⟨c', _⟩, hc', rfl⟩ := List.mem_map.mp hid'
    obtain ⟨hentry, -⟩ := once (hslot hc') (hslot hc)
    have hhome := hg.home p hp
    rw [hentry, hg.home q hq] at hhome
    exact hne (Prod.ext (Option.some.inj hhome).symm hentry)

theorem countP_range (l : List Slot) :
    (List.range l.length).countP (fun id => l[id]?.any (·.borrowed)) = l.countP (·.borrowed) := by
  induction l with
  | nil => rfl
  | cons x l ih =>
    rw [List.length_cons, List.range_succ_eq_map, List.countP_cons, List.countP_map,
      List.countP_cons, ← ih]
    rfl

theorem borrowed_le_lentSlots {m : System} (hm : Reachable .calm m) :
    m.state.metrics.borrowedConnections ≤ m.state.lentSlots := by
  obtain ⟨g, hg⟩ := hm.calm_good
  have hnodup := (hg.sound trivial).indexed.nodup_registered (hg.sound trivial).placed.slotIn?_inj
  rw [hg.state] at hnodup
  rw [borrowedConnections_eq, State.lentSlots, ← countP_range, List.countP_eq_length_filter,
    List.countP_eq_length_filter]
  refine ((hnodup.filter _).subperm fun id hid => ?_).length_le
  obtain ⟨-, hlent⟩ := List.mem_filter.mp hid
  obtain ⟨x, hx, -⟩ := (Option.any_eq_true ..).mp hlent
  exact List.mem_filter.mpr ⟨List.mem_range.mpr (List.getElem?_eq_some_iff.mp hx).1, hlent⟩

/-- **Every borrow ends at most once in the metrics**, but for releases of slots that are idle: at
rest, releases, borrows that timed out and slots that are lent are together no more than the borrows
and the releases that found their slot idle. -/
theorem ends_counted {m : System} (hm : Reachable .calm m) (hrest : m.ongoing = []) :
    (∃ n, Counted .calm m n) ∧ ∀ n, Counted .calm m n →
      m.state.metrics.released + m.state.metrics.evictedReleased +
        m.state.metrics.borrowedConnections ≤ m.state.metrics.borrowed + n := by
  refine ⟨hm.counted, fun n hn => ?_⟩
  have hsettles := hn.settles
  have hlent := borrowed_le_lentSlots hm
  rw [System.Settles, hrest, sumOf_nil, sumOf_nil] at hsettles
  show m.state.ledger.released + m.state.ledger.evictedReleased + _ ≤ m.state.ledger.borrowed + n
  omega

/-- A borrow that the inspection before its release ends: both are counted. -/
theorem ends_counted_inspected : ∃ m, Reachable .calm m ∧ m.ongoing = [] ∧ Counted .calm m 1 ∧
    m.state.metrics.released = 1 ∧ m.state.metrics.evictedReleased = 1 ∧
    m.state.metrics.released + m.state.metrics.evictedReleased +
      m.state.metrics.borrowedConnections ≤ m.state.metrics.borrowed + 1 := by
  let i : Identity := ⟨"host", 22, "user", "secret"⟩
  let r : Request := ⟨i, ⟨1⟩, .sftp⟩
  let o : Ongoing := ⟨.borrow r, .opening r 0 .sftp (.ofMillis 5000)⟩
  let m₁ := (System.initial { borrowTimeout := .ofMillis 1 } .faithful 0).started (.borrow r)
  let m₂ := m₁.resumed o ⟨⟨1, .sftp⟩, none⟩ []
  let m₃ : System := { m₂ with now := 2000000 }
  let m₄ := m₃.started (.release i ⟨1⟩)
  have hm₁ : Counted .calm m₁ 0 :=
    .other (.initial _ .faithful 0) (.start _ _ fun o ho => by cases ho)
      fun h => absurd h.last (by decide)
  have hm₂ : Counted .calm m₂ 0 :=
    .other hm₁ (.resume m₁ [] o [] ⟨⟨1, .sftp⟩, none⟩ rfl (by simp) ⟨by decide, rfl⟩)
      fun h => absurd h.last (by decide)
  have hm₃ : Counted .calm m₃ 0 :=
    .other hm₂ (.pass m₂ 2000000 (by decide)) fun h => absurd h.last (by decide)
  have hidle : m₃.ReleasesIdle m₄ :=
    System.releasesIdle_of_shown rfl (by decide) (by decide)
  have hm₄ : Counted .calm m₄ 1 :=
    .idle hm₃ (.start _ _ fun o ho => absurd (List.length_pos_of_mem ho) (by decide)) hidle
  have hrest : m₄.ongoing = [] := List.isEmpty_iff.mp (by decide)
  obtain ⟨-, hends⟩ := ends_counted hm₄.reachable hrest
  exact ⟨m₄, hm₄.reachable, hrest, hm₄, by decide, by decide, hends 1 hm₄⟩

/-- One borrow and two releases. -/
theorem released_twice : ∃ m, Reachable .calm m ∧ m.ongoing = [] ∧
    m.state.metrics.released = 2 ∧ m.state.metrics.borrowed = 1 := by
  let i : Identity := ⟨"host", 22, "user", "secret"⟩
  let r : Request := ⟨i, ⟨1⟩, .sftp⟩
  let o : Ongoing := ⟨.borrow r, .opening r 0 .sftp (.ofMillis 5000)⟩
  let m₁ := (System.initial {} .faithful 0).started (.borrow r)
  let m₂ := m₁.resumed o ⟨⟨1, .sftp⟩, none⟩ []
  let m₃ := m₂.started (.release i ⟨1⟩)
  let m₄ := m₃.started (.release i ⟨1⟩)
  have hm₁ : Reachable .calm m₁ :=
    .next (.initial {} .faithful 0) (.start _ _ fun o ho => by cases ho)
  have hm₂ : Reachable .calm m₂ :=
    .next hm₁ (.resume m₁ [] o [] ⟨⟨1, .sftp⟩, none⟩ rfl (by simp) ⟨by decide, rfl⟩)
  have hm₃ : Reachable .calm m₃ :=
    .next hm₂ (.start _ _ fun o ho => absurd (List.length_pos_of_mem ho) (by decide))
  have hm₄ : Reachable .calm m₄ :=
    .next hm₃ (.start _ _ fun o ho => absurd (List.length_pos_of_mem ho) (by decide))
  exact ⟨m₄, hm₄, List.isEmpty_iff.mp (by decide), by decide, by decide⟩

end ConnectionLeasing.Affine

import ConnectionLeasing.Proofs.Pool.Draining

/-!
# Operations from their start to their end

`Does` is one operation as a whole. Its callbacks answer anything, and before they answer they may
use the pool themselves, as long as what they start is through by then (`Meanwhile`).

* `errand_start`, `errand_resume`: an operation keeps to what it was started for, so a borrow ends
  as borrows do.
* `Onward`: what every part of an operation keeps; in particular no time passes.
* `Does.dry_of_exhausted`: a borrow finds nothing only if there was nothing when it began, and then
  it has changed nothing.
* `Does.freed`: after a return or a closing the pool has something to lend, or refuses to, and its
  borrowers were woken.
-/

namespace ConnectionLeasing.Pool

variable {α : Type}

/-! ### Errands -/

/-- What an operation was started for. -/
inductive Errand
  | borrow
  | giveBack
  | evict
  | close
  deriving DecidableEq

def Command.errand : Command α → Errand
  | tryBorrow => .borrow
  | giveBack _ => .giveBack
  | evictIdle => .evict
  | close => .close

def Drain.errand : Drain → Errand
  | close => .close
  | returned => .giveBack

def Frame.errand : Frame α → Errand
  | creating | checking (.lending ..) | destroying _ (.stale _) => .borrow
  | checking (.returned _) | destroying _ .returned => .giveBack
  | checking (.evicting ..) | destroying _ (.evicted _) | destroying _ (.rejected ..) => .evict
  | destroying _ (.drained _ cause) => cause.errand

def Result.errand : Result α → Errand
  | lent _ | exhausted | failed _ => .borrow
  | returned => .giveBack
  | evicted _ => .evict
  | closed _ => .close

/-- What an operation that has got so far was started for. -/
def errand : Progress (Frame α) (Result α) → Errand
  | .paused f => f.errand
  | .done r => r.errand

def Step.errand (s : Step α) : Errand := Pool.errand s.next

section errands
variable {p : Pool α}

theorem errand_lend (p : Pool α) (start : Nat) : (p.lend start).errand = .borrow := by
  rw [lend]
  split
  · dsimp only
    split <;> rfl
  · split <;> rfl

theorem errand_drain (p : Pool α) (drained : Nat) (cause : Drain) :
    (p.drain drained cause).errand = cause.errand := by
  unfold drain
  split
  · rfl
  · cases cause <;> rfl

theorem errand_requeue (p : Pool α) (now : Nat) (x : Item α) :
    (p.requeue now x).errand = .giveBack := by
  rw [requeue]
  split
  · rfl
  · split
    · exact errand_drain _ 0 .returned
    · rfl

theorem errand_restore (p : Pool α) (evicted : Nat) (keep : List (IdleItem α)) :
    (p.restore evicted keep).errand = .evict := by
  induction keep generalizing p with
  | nil => rfl
  | cons x others ih =>
    rw [restore]
    split
    · exact ih _
    · rfl

theorem errand_evict (p : Pool α) (run : Eviction α) : (p.evict run).errand = .evict := by
  rw [evict]
  split
  · dsimp only
    split <;> rfl
  · exact errand_restore p _ _

theorem errand_start (p : Pool α) (now : Nat) (k : Command α) :
    (start p now k).errand = k.errand := by
  cases k with
  | tryBorrow =>
    rw [start, tryBorrow]
    split
    · rfl
    · exact errand_lend p now
  | giveBack x =>
    rw [start, giveBack]
    split <;> rfl
  | evictIdle => exact errand_evict p _
  | close => exact errand_drain _ 0 .close

theorem errand_resume (p : Pool α) (now : Nat) (f : Frame α) (a : f.callback.Answer) :
    (resume p now f a).errand = f.errand := by
  cases f with
  | creating => cases a <;> rfl
  | checking c =>
    cases c with
    | returned x =>
      cases a with
      | true => exact errand_requeue p now x
      | false => rfl
    | lending x start => cases a <;> rfl
    | evicting x run =>
      cases a with
      | true => exact errand_evict p _
      | false => rfl
  | destroying x d =>
    cases d with
    | returned => rfl
    | stale start => exact errand_lend _ start
    | evicted run => exact errand_evict _ _
    | rejected others evicted => exact errand_restore _ _ others
    | drained drained cause => exact errand_drain _ _ cause

end errands

/-! ### Finding nothing -/

/-- A borrow from the pool finds nothing: no object is idle, and there is no room for another. -/
structure Dry (p : Pool α) : Prop where
  opened : p.closed = false
  idle : p.idle = []
  full : p.settings.maxSize ≤ p.total

section dry
variable {p : Pool α}

theorem lend_exhausted_iff (start : Nat) :
    (p.lend start).next = .done .exhausted ↔ p.idle = [] ∧ p.settings.maxSize ≤ p.total := by
  constructor
  · intro h
    rw [lend] at h
    split at h
    · dsimp only at h
      split at h <;> cases h
    · rename_i hidle
      split at h
      · cases h
      · rename_i hroom
        exact ⟨hidle, Nat.le_of_not_lt hroom⟩
  · rintro ⟨hidle, hfull⟩
    rw [lend, hidle]
    dsimp only
    rw [if_neg (Nat.not_lt.mpr hfull)]
    rfl

theorem tryBorrow_exhausted_iff (now : Nat) :
    (start p now .tryBorrow).next = .done .exhausted ↔ p.Dry := by
  rw [start, tryBorrow]
  split
  · rename_i hclosed
    constructor
    · intro h
      cases h
    · intro h
      rw [h.opened] at hclosed
      cases hclosed
  · rename_i hopen
    rw [lend_exhausted_iff]
    exact ⟨fun h => ⟨Bool.eq_false_iff.mpr hopen, h.1, h.2⟩, fun h => ⟨h.idle, h.full⟩⟩

theorem Dry.tryBorrow (h : p.Dry) (now : Nat) :
    start p now .tryBorrow = p.finish .exhausted [] := by
  rw [start, Pool.tryBorrow, if_neg (Bool.eq_false_iff.mp h.opened), lend, h.idle]
  dsimp only
  rw [if_neg (Nat.not_lt.mpr h.full)]

theorem System.Balances.room_of_destroying {m : System α} (hb : m.Balances) {x : Item α}
    {d : Disposal α} (hf : .destroying x d ∈ m.ongoing) :
    m.pool.bookDestroyed.total < m.pool.bookDestroyed.settings.maxSize := by
  have hhands : 0 < m.hands.length :=
    List.length_pos_of_mem (List.mem_flatMap.mpr ⟨_, hf, List.mem_cons_self⟩)
  have htotal := hb.total
  have hbound := hb.bound
  simp only [bookDestroyed, signal]
  omega

/-- No operation finds nothing in mid-course: a borrow that goes on has just destroyed an object, so
that there is room. -/
theorem System.Balances.resume_ne_exhausted {m : System α} (hb : m.Balances) {f : Frame α}
    (hf : f ∈ m.ongoing) (a : f.callback.Answer) :
    (resume m.pool m.now f a).next ≠ .done .exhausted := by
  intro h
  have herrand := errand_resume m.pool m.now f a
  rw [Step.errand, h] at herrand
  cases f with
  | creating => cases a <;> cases h
  | checking c =>
    cases c with
    | lending x start => cases a <;> cases h
    | returned | evicting => cases herrand
  | destroying x d =>
    cases d with
    | stale start =>
      have hlend : (m.pool.bookDestroyed.lend start).next = .done .exhausted := h
      obtain ⟨-, hfull⟩ := (lend_exhausted_iff start).mp hlend
      exact absurd hfull (Nat.not_le.mpr (hb.room_of_destroying hf))
    | drained drained cause => cases cause <;> cases herrand
    | returned | evicted | rejected => cases herrand

end dry

/-! ### Waking borrowers -/

section signals
variable {p : Pool α}

theorem signals_lend (p : Pool α) (start : Nat) : p.signals ≤ (p.lend start).pool.signals := by
  rw [lend]
  split
  · dsimp only
    split <;> exact Nat.le_refl _
  · split <;> exact Nat.le_refl _

theorem signals_drain (p : Pool α) (drained : Nat) (cause : Drain) :
    p.signals ≤ (p.drain drained cause).pool.signals := by
  unfold drain
  split
  · exact Nat.le_refl _
  · exact Nat.le_succ _

theorem signals_requeue (p : Pool α) (now : Nat) (x : Item α) :
    p.signals ≤ (p.requeue now x).pool.signals := by
  rw [requeue]
  split
  · exact Nat.le_refl _
  · rename_i q hq
    obtain rfl := push?_eq_some hq
    split
    · exact signals_drain { p with idle := p.idle ++ [⟨x, now⟩] } 0 .returned
    · exact Nat.le_succ _

theorem signals_restore (p : Pool α) (evicted : Nat) (keep : List (IdleItem α)) :
    p.signals ≤ (p.restore evicted keep).pool.signals := by
  induction keep generalizing p with
  | nil => exact Nat.le_refl _
  | cons x others ih =>
    rw [restore]
    split
    · rename_i q hq
      obtain rfl := push?_eq_some hq
      exact ih { p with idle := p.idle ++ [x] }
    · exact Nat.le_refl _

theorem signals_evict (p : Pool α) (run : Eviction α) :
    p.signals ≤ (p.evict run).pool.signals := by
  rw [evict]
  split
  · dsimp only
    split <;> exact Nat.le_refl _
  · exact signals_restore p _ _

theorem signals_start (p : Pool α) (now : Nat) (k : Command α) :
    p.signals ≤ (start p now k).pool.signals := by
  cases k with
  | tryBorrow =>
    rw [start, tryBorrow]
    split
    · exact Nat.le_refl _
    · exact signals_lend p now
  | giveBack x =>
    rw [start, giveBack]
    split <;> exact Nat.le_refl _
  | evictIdle => exact signals_evict p _
  | close => exact signals_drain { p with closed := true } 0 .close

theorem signals_resume (p : Pool α) (now : Nat) (f : Frame α) (a : f.callback.Answer) :
    p.signals ≤ (resume p now f a).pool.signals := by
  cases f with
  | creating =>
    cases a with
    | ok value => exact Nat.le_refl _
    | error e => exact Nat.le_succ _
  | checking c =>
    cases c with
    | returned x =>
      cases a with
      | true => exact signals_requeue p now x
      | false => exact Nat.le_refl _
    | lending x start => cases a <;> exact Nat.le_refl _
    | evicting x run =>
      cases a with
      | true => exact signals_evict p _
      | false => exact Nat.le_refl _
  | destroying x d =>
    refine Nat.le_trans (Nat.le_succ p.signals) ?_
    show p.bookDestroyed.signals ≤ (p.bookDestroyed.resumeDestroying d).pool.signals
    cases d with
    | returned => exact Nat.le_refl _
    | stale start => exact signals_lend _ start
    | evicted run => exact signals_evict _ _
    | rejected others evicted => exact signals_restore _ _ others
    | drained drained cause => exact signals_drain _ _ cause

end signals

namespace System

/-- What every part of an operation keeps. -/
structure Onward (m m' : System α) : Prop where
  now : m'.now = m.now
  name : m'.pool.name = m.pool.name
  closed : m.pool.closed = true → m'.pool.closed = true
  signals : m.pool.signals ≤ m'.pool.signals
  balances : m.Balances → m'.Balances

section onward
variable {m m' m'' : System α}

theorem Onward.refl (m : System α) : m.Onward m := ⟨rfl, rfl, id, Nat.le_refl _, id⟩

theorem Onward.trans (h : m.Onward m') (h' : m'.Onward m'') : m.Onward m'' where
  now := h'.now.trans h.now
  name := h'.name.trans h.name
  closed := h'.closed ∘ h.closed
  signals := Nat.le_trans h.signals h'.signals
  balances := h'.balances ∘ h.balances

theorem onward_started {k : Command α} {guards : List (Item α)}
    (hk : m.guards.Perm (k.items ++ guards)) : m.Onward (m.started k guards) where
  now := rfl
  name := by
    by_cases hclose : k = .close
    · subst hclose
      exact (stays_close m.pool m.now).name
    · exact (stays_start m.pool m.now hclose).name
  closed := (conserves_start m.pool m.now k).closed
  signals := signals_start m.pool m.now k
  balances hb := hb.start hk

theorem onward_resumed {f : Frame α} {later : List (Frame α)} (hm : m.ongoing = f :: later)
    (a : f.callback.Answer) : m.Onward (m.resumed f a later) where
  now := rfl
  name := (stays_resume m.pool m.now f a).name
  closed := closed_resume m.now a
  signals := signals_resume m.pool m.now f a
  balances hb := by
    rw [← List.nil_append later]
    exact hb.answer hm a

end onward

end System

/-! ### From start to end -/

/-- Operations start and go on above operations that wait, in no time. -/
inductive Meanwhile (below : List (Frame α)) : System α → System α → Prop
  | refl (m : System α) : Meanwhile below m m
  | start {m m' : System α} (h : Meanwhile below m m') (k : Command α) (guards : List (Item α))
      (hk : m'.guards.Perm (k.items ++ guards)) : Meanwhile below m (m'.started k guards)
  | resume {m m' : System α} (h : Meanwhile below m m') (f : Frame α) (above : List (Frame α))
      (a : f.callback.Answer) (hm : m'.ongoing = f :: (above ++ below)) :
      Meanwhile below m (m'.resumed f a (above ++ below))

/-- An operation that has got as far as `next`, above operations that wait, goes on to its end. A
callback answers once everything that it has started is through. -/
inductive Ends (below : List (Frame α)) :
    Progress (Frame α) (Result α) → System α → Result α → System α → Prop
  | done (r : Result α) (m : System α) : Ends below (.done r) m r m
  | paused {f : Frame α} {m m' m'' : System α} {r : Result α} (a : f.callback.Answer)
      (hmeanwhile : Meanwhile (f :: below) m m') (hm : m'.ongoing = f :: below)
      (h : Ends below (Pool.resume m'.pool m'.now f a).next (m'.resumed f a below) r m'') :
      Ends below (.paused f) m r m''

/-- An operation from its start to its end. -/
def Does (k : Command α) (m : System α) (r : Result α) (m' : System α) : Prop :=
  ∃ guards, m.guards.Perm (k.items ++ guards) ∧
    Ends m.ongoing (start m.pool m.now k).next (m.started k guards) r m'

/-- A way in which operations are carried out: what each of them comes to and the system it leaves,
whatever its callbacks answer and do. -/
structure Conduct (α : Type) where
  run : System α → Command α → Result α × System α
  does (m : System α) (k : Command α) (h : ∀ x ∈ k.items, x ∈ m.guards) :
    Does k m (run m k).1 (run m k).2

section does
variable {below : List (Frame α)} {next : Progress (Frame α) (Result α)} {k : Command α}
  {m m' : System α} {r : Result α}

theorem Meanwhile.onward (h : Meanwhile below m m') : m.Onward m' := by
  induction h with
  | refl => exact .refl m
  | start _ k guards hk ih => exact ih.trans (System.onward_started hk)
  | resume _ f above a hm ih => exact ih.trans (System.onward_resumed hm a)

theorem Ends.onward (h : Ends below next m r m') : m.Onward m' := by
  induction h with
  | done r m => exact .refl m
  | paused a hmeanwhile hm _ ih =>
    exact (hmeanwhile.onward.trans (System.onward_resumed hm a)).trans ih

theorem Does.onward (h : Does k m r m') : m.Onward m' := by
  obtain ⟨guards, hk, hends⟩ := h
  exact (System.onward_started hk).trans hends.onward

theorem Ends.ongoing (h : Ends below next m r m') (hm : m.ongoing = left next ++ below) :
    m'.ongoing = below := by
  induction h with
  | done r m => exact hm
  | paused a hmeanwhile hm _ ih => exact ih rfl

theorem Does.ongoing (h : Does k m r m') : m'.ongoing = m.ongoing := by
  obtain ⟨guards, hk, hends⟩ := h
  exact hends.ongoing rfl

theorem Ends.errand (h : Ends below next m r m') :
    r.errand = Pool.errand next := by
  induction h with
  | done r m => rfl
  | paused a hmeanwhile hm _ ih => exact ih.trans (errand_resume _ _ _ a)

theorem Does.errand (h : Does k m r m') : r.errand = k.errand := by
  obtain ⟨guards, hk, hends⟩ := h
  exact hends.errand.trans (errand_start m.pool m.now k)

/-! ### Borrowing -/

theorem Ends.ne_exhausted (h : Ends below next m r m') (hb : m.Balances)
    (hnext : next ≠ .done .exhausted) : r ≠ .exhausted := by
  induction h with
  | done r m => exact fun hr => hnext (congrArg _ hr)
  | paused a hmeanwhile hm _ ih =>
    have hb' := hmeanwhile.onward.balances hb
    refine ih ((System.onward_resumed hm a).balances hb') ?_
    exact hb'.resume_ne_exhausted (by simp [hm]) a

/-- **A borrow finds nothing only in a pool that is dry when it begins**, and it is through at
once. -/
theorem Does.dry_of_exhausted (h : Does .tryBorrow m .exhausted m') (hb : m.Balances) :
    m.pool.Dry := by
  obtain ⟨guards, hk, hends⟩ := h
  by_contra hdry
  refine hends.ne_exhausted (hb.start hk) (fun hnext => hdry ?_) rfl
  exact (tryBorrow_exhausted_iff m.now).mp hnext

theorem Does.exhausted_of_dry (h : Does .tryBorrow m r m') (hdry : m.pool.Dry) :
    r = .exhausted ∧ m'.pool = m.pool ∧ m'.guards.Perm m.guards := by
  obtain ⟨guards, hk, hends⟩ := h
  have hstart := hdry.tryBorrow m.now
  rw [System.started, hstart] at hends
  rw [finish] at hends
  cases hends
  exact ⟨rfl, rfl, hk.symm⟩

theorem Does.refused (h : Does .tryBorrow m r m') (hclosed : m.pool.closed = true) :
    r = .failed (.poolClosed m.pool.name) := by
  obtain ⟨guards, hk, hends⟩ := h
  rw [System.started, start, tryBorrow, if_pos hclosed] at hends
  rw [finish] at hends
  cases hends
  rfl

theorem lend_ne_failed (p : Pool α) (start : Nat) (e : LeaseError) :
    (p.lend start).next ≠ .done (.failed e) := by
  intro h
  rw [lend] at h
  split at h
  · dsimp only at h
    split at h <;> cases h
  · split at h <;> cases h

theorem resume_failed {p : Pool α} {now : Nat} {f : Frame α} {a : f.callback.Answer}
    {e : LeaseError} (h : (resume p now f a).next = .done (.failed e)) :
    Event.resumed f a (.done (.failed e)) =
      .resumed .creating (.error e) (.done (.failed e)) := by
  have herrand := errand_resume p now f a
  rw [Step.errand, h] at herrand
  cases f with
  | creating =>
    cases a with
    | ok value => cases h
    | error e' =>
      cases h
      rfl
  | checking c =>
    cases c with
    | lending x start => cases a <;> cases h
    | returned | evicting => cases herrand
  | destroying x d =>
    cases d with
    | stale start => exact absurd h (lend_ne_failed _ start e)
    | drained drained cause => cases cause <;> cases herrand
    | returned | evicted | rejected => cases herrand

theorem Ends.failed {e : LeaseError} (h : Ends below next m (.failed e) m')
    (hnext : next ≠ .done (.failed e)) :
    m'.events.getLast? = some (.resumed .creating (.error e) (.done (.failed e))) := by
  generalize hr : Result.failed e = r at h
  induction h with
  | done r m => exact absurd (congrArg _ hr.symm) hnext
  | @paused f m m₁ m₂ r a _ hm h ih =>
    subst hr
    by_cases hfailed : (Pool.resume m₁.pool m₁.now f a).next = .done (.failed e)
    · rw [hfailed] at h
      cases h
      rw [System.resumed, System.moved, hfailed, resume_failed hfailed]
      exact List.getLast?_concat
    · exact ih hfailed rfl

theorem Does.failed {e : LeaseError} (h : Does .tryBorrow m (.failed e) m')
    (hopen : m.pool.closed = false) :
    m'.events.getLast? = some (.resumed .creating (.error e) (.done (.failed e))) := by
  obtain ⟨guards, hk, hends⟩ := h
  refine hends.failed fun hnext => ?_
  rw [start, tryBorrow, if_neg (Bool.eq_false_iff.mp hopen)] at hnext
  exact lend_ne_failed m.pool m.now e hnext

theorem Does.evicted_of_dry (h : Does .evictIdle m r m') (hdry : m.pool.Dry) :
    m'.pool = m.pool ∧ m'.guards.Perm m.guards := by
  obtain ⟨guards, hk, hends⟩ := h
  rw [System.started, evictIdle_nil m.now hdry.idle] at hends
  rw [finish] at hends
  cases hends
  exact ⟨rfl, hk.symm⟩

/-! ### Giving back and closing -/

/-- A step of a return or of a closing: it goes on, or it has left something to lend or a closed
pool, and has woken the borrowers. `signals` counts how often they were woken before. -/
def Step.Frees (s : Step α) (signals : Nat) : Prop :=
  match s.next with
  | .paused f => (f.isDraining = true → s.pool.closed = true) ∧ signals ≤ s.pool.signals
  | .done _ => ¬ s.pool.Dry ∧ signals < s.pool.signals

theorem Step.Frees.mono {s : Step α} {n n' : Nat} (h : s.Frees n') (hn : n ≤ n') : s.Frees n := by
  unfold Step.Frees at h ⊢
  split at h
  · exact ⟨h.1, Nat.le_trans hn h.2⟩
  · exact ⟨h.1, Nat.lt_of_le_of_lt hn h.2⟩

theorem not_dry_of_closed {p : Pool α} (h : p.closed = true) : ¬ p.Dry := by
  intro hdry
  rw [hdry.opened] at h
  cases h

theorem frees_drain {p : Pool α} (drained : Nat) (cause : Drain) (hclosed : p.closed = true) :
    (p.drain drained cause).Frees p.signals := by
  unfold drain
  split
  · exact ⟨fun _ => hclosed, Nat.le_refl _⟩
  · exact ⟨not_dry_of_closed hclosed, Nat.lt_succ_self _⟩

theorem frees_requeue (p : Pool α) (now : Nat) (x : Item α) :
    (p.requeue now x).Frees p.signals := by
  rw [requeue]
  split
  · refine ⟨fun h => ?_, Nat.le_refl _⟩
    cases h
  · rename_i q hq
    obtain rfl := push?_eq_some hq
    split
    · rename_i hclosed
      exact frees_drain (p := { p with idle := p.idle ++ [⟨x, now⟩] }) 0 .returned hclosed
    · refine ⟨fun hdry => ?_, Nat.lt_succ_self _⟩
      have hidle : p.idle ++ [⟨x, now⟩] = [] := hdry.idle
      simp at hidle

theorem frees_start {p : Pool α} (now : Nat) (hk : k.errand = .giveBack ∨ k.errand = .close) :
    (start p now k).Frees p.signals := by
  cases k with
  | tryBorrow | evictIdle => rcases hk with hk | hk <;> cases hk
  | giveBack x =>
    rw [start, giveBack]
    split
    · refine ⟨fun h => ?_, Nat.le_refl _⟩
      cases h
    · refine ⟨fun h => ?_, Nat.le_refl _⟩
      cases h
  | close => exact frees_drain (p := { p with closed := true }) 0 .close rfl

theorem frees_resume (hb : m.Balances) {f : Frame α} (hf : f ∈ m.ongoing)
    (herrand : f.errand = .giveBack ∨ f.errand = .close)
    (hdraining : f.isDraining = true → m.pool.closed = true) (a : f.callback.Answer) :
    (Pool.resume m.pool m.now f a).Frees m.pool.signals := by
  cases f with
  | creating => rcases herrand with h | h <;> cases h
  | checking c =>
    cases c with
    | returned x =>
      cases a with
      | true => exact frees_requeue m.pool m.now x
      | false =>
        refine ⟨fun h => ?_, Nat.le_refl _⟩
        cases h
    | lending | evicting => rcases herrand with h | h <;> cases h
  | destroying x d =>
    cases d with
    | returned =>
      have hroom := hb.room_of_destroying hf
      exact ⟨fun hdry => absurd hdry.full (Nat.not_le.mpr hroom), Nat.lt_succ_self _⟩
    | stale | evicted | rejected => rcases herrand with h | h <;> cases h
    | drained drained cause =>
      have hfrees := frees_drain (p := m.pool.bookDestroyed) (drained + 1) cause (hdraining rfl)
      exact hfrees.mono (Nat.le_succ _)

theorem Ends.freed (h : Ends below next m r m') (hb : m.Balances) {signals : Nat}
    (hm : m.ongoing = left next ++ below)
    (herrand : Pool.errand next = .giveBack ∨ Pool.errand next = .close)
    (hnext : Step.Frees ⟨m.pool, next, []⟩ signals) :
    ¬ m'.pool.Dry ∧ signals < m'.pool.signals := by
  -- what the callbacks do in between neither opens the pool nor takes a signal back
  induction h with
  | done r m => exact hnext
  | @paused f m₀ m₁ _ _ a hmeanwhile hm₁ _ ih =>
    obtain ⟨hdraining, hsignals⟩ := hnext
    have honward := hmeanwhile.onward
    have hb₁ := honward.balances hb
    have hmem : f ∈ m₁.ongoing := by simp [hm₁]
    refine ih ((System.onward_resumed hm₁ a).balances hb₁) rfl ?_ ?_
    · have hkeeps := errand_resume m₁.pool m₁.now f a
      rw [Step.errand] at hkeeps
      rw [hkeeps]
      exact herrand
    · have hfrees := frees_resume hb₁ hmem herrand (fun h => honward.closed (hdraining h)) a
      exact hfrees.mono (Nat.le_trans hsignals honward.signals)

/-- **After a return or a closing a borrow does not find nothing**, and the borrowers were woken. -/
theorem Does.freed (h : Does k m r m') (hb : m.Balances)
    (hk : k.errand = .giveBack ∨ k.errand = .close) :
    ¬ m'.pool.Dry ∧ m.pool.signals < m'.pool.signals := by
  obtain ⟨guards, hguards, hends⟩ := h
  refine hends.freed (hb.start hguards) rfl ?_ (frees_start m.now hk)
  have hkeeps := errand_start m.pool m.now k
  rw [Step.errand] at hkeeps
  rw [hkeeps]
  exact hk

theorem Does.closed_of_close (h : Does .close m r m') : m'.pool.closed = true := by
  obtain ⟨guards, hguards, hends⟩ := h
  exact hends.onward.closed (stays_close m.pool m.now).closed

end does

/-! ### A pool of one object -/

/-- The only object of a pool is lent. -/
def lentOnly : System Nat :=
  ((System.initial "pool" { maxSize := 1 } 0).started .tryBorrow []).resumed .creating (.ok 7) []

theorem reachable_lentOnly : Reachable .nesting lentOnly := by
  let m₀ : System Nat := .initial "pool" { maxSize := 1 } 0
  let m₁ := m₀.started .tryBorrow []
  have hm₀ : Reachable .nesting m₀ := .initial _ _ _
  have hm₁ : Reachable .nesting m₁ := hm₀.next (.start m₀ .tryBorrow [] (.refl _) trivial)
  exact hm₁.next (.resume m₁ [] .creating [] (.ok 7) rfl fun _ => rfl)

end ConnectionLeasing.Pool

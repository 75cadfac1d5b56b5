import ConnectionLeasing.Proofs.Affine.Covering
import ConnectionLeasing.Proofs.Affine.Observing
import ConnectionLeasing.Schedule

/-!
# How long the scheduled inspection can forget a slot

A `Scheduled` system is a manager with the schedule of its inspections, switched on when the manager
was made and not switched since. Time passes up to the next tick at most, and not while a tick runs;
everything else may happen at any time, also while a tick shows itself to observers, and an observer
may fail in it.

* `Scheduled.Punctual`: between two ticks no registered slot is late for the last one; while a tick
  waits, late slots are those its frame shows.
* `forgotten_at_most_a_period`: so no slot outstays its timeout by a whole period.
-/

namespace ConnectionLeasing.Affine

/-! ### Moves of a manager -/

section moves
variable {m m' : System} {k : Option Command} {g g' : Stage} {t : Nat} {f : Frame}

theorem System.Passage.settings (h : System.Passage True m k m' g g') :
    g'.state.settings = g.state.settings := by
  obtain ⟨_, _, -, -, ht, -⟩ := h.trail
  exact ht.settings

theorem System.Passage.covers (h : System.Passage True m k m' g g') (hg : m.Good True g)
    (ht : t ≤ m.now) {P : Nat → ContextId → Nat → Bool → Prop} (hc : m.state.Covers t P) :
    m'.state.Covers t P := by
  obtain ⟨c, x, hx, -, htrail, -⟩ := h.trail
  rw [← h.good.state]
  refine htrail.covers ((hg.sound trivial).inHand c (hx trivial)) ht ?_
  show g.state.Covers t P
  rw [hg.state]
  exact hc

theorem Moves.settings (hm : Reachable .calm m) (h : Moves .calm m k m') :
    m'.state.settings = m.state.settings := by
  obtain ⟨g, hg⟩ := hm.calm_good
  obtain ⟨g', hp⟩ := hg.next (fun _ _ _ h => h) h
  rw [← hp.good.state, hp.settings, hg.state]

theorem Moves.timely (hm : Reachable .calm m) (h : Moves .calm m k m') (ht : t ≤ m.now)
    (hc : m.state.Timely t) : m'.state.Timely t := by
  obtain ⟨g, hg⟩ := hm.calm_good
  obtain ⟨g', hp⟩ := hg.next (fun _ _ _ h => h) h
  exact hp.covers hg ht hc

theorem Frame.covers_of_yields (hf : f.call.yields) (s : State) : f.Covers t s ↔ s.Timely t := by
  cases f <;> first | rfl | cases hf

theorem Frame.Covers.attached {s : State} (h : f.Covers t s) (observers : List Observer) :
    f.Covers t { s with observers } := by
  cases f with
  | closing c after => cases after <;> exact h
  | _ => exact h

theorem Reachable.covered_start (hm : Reachable .calm m)
    (hyields : ∀ o ∈ m.ongoing, o.frame.call.yields) :
    (start m.state m.now .tick).Covered m.now := by
  obtain ⟨g, hg⟩ := hm.calm_good
  obtain ⟨observers, ho⟩ := hm.observers
  rw [← hg.state] at ho ⊢
  exact Affine.covered_start (g := { g with claim := none, closing := none }) ho.symm
    (hg.ready fun _ => hyields)

theorem Reachable.covered_resume (hm : Reachable .calm m) {before later : List Ongoing}
    (hongoing : m.ongoing = before ++ ⟨.tick, f⟩ :: later)
    (hyields : ∀ p ∈ before ++ later, p.frame.call.yields) (hf : f.Covers m.now m.state)
    (a : f.call.Answer) : (Affine.resume m.state m.now f a).Covered m.now := by
  obtain ⟨g, hg⟩ := hm.calm_good
  rw [← hg.state] at hf ⊢
  exact Affine.covered_resume (g := { g with claim := f.claim?, closing := f.closing? })
    (hg.awaits hongoing fun _ => hyields) hf

theorem Moves.covers (hm : Reachable .calm m) (h : Moves .calm m k m')
    (hf : f.Covers m.now m.state) (hongoing : ⟨.tick, f⟩ ∈ m.ongoing)
    (hstill : ⟨.tick, f⟩ ∈ m'.ongoing) : f.Covers m.now m'.state := by
  by_cases hyields : f.call.yields
  · rw [Frame.covers_of_yields hyields] at hf ⊢
    exact h.timely hm (Nat.le_refl _) hf
  · -- while a disconnect is answered only the tick itself can move
    have apart : ∀ {l : List Ongoing}, (∀ p ∈ l, p.frame.call.yields) → ⟨.tick, f⟩ ∉ l :=
      fun hl hin => hyields (hl _ hin)
    cases h with
    | start k hk => exact absurd hongoing (apart hk)
    | resume before o later a hm' ho ha =>
      have hself : o = ⟨.tick, f⟩ := by
        rw [hm'] at hongoing
        rcases List.mem_append.mp hongoing with hin | hin
        · exact absurd (List.mem_append_left _ hin) (apart ho)
        · rcases List.mem_cons.mp hin with heq | hin
          · exact heq.symm
          · exact absurd (List.mem_append_right _ hin) (apart ho)
      subst hself
      obtain ⟨-, hpaused⟩ := (System.mem_moved hstill).resolve_right (apart ho)
      have hcovered := hm.covered_resume hm' ho hf a
      rw [Step.Covered, hpaused] at hcovered
      exact hcovered
    | fail before o later hm' ho htells => exact absurd hstill (apart ho)
    | attach o => exact hf.attached _
    | pass t ht => exact hf

end moves

/-! ### A manager with its schedule -/

/-- A scheduled tick in progress. -/
structure Tick where
  /-- The number of its task. -/
  task : Nat
  /-- Where it waits. -/
  frame : Frame

structure Scheduled where
  system : System
  schedule : Schedule
  /-- The turn of the next wait. -/
  turn : Nat
  /-- The tick that runs, if any. -/
  tick : Option Tick

namespace Scheduled

/-- A new manager, with its inspections switched on if its settings say so. Nothing keeps their task
from starting. -/
def initial (settings : ManagerSettings) (factory : Factory) (now turn : Nat) : Scheduled where
  system := .initial settings factory now
  schedule := Schedule.setEnabled { period := settings.schedulePeriod } now turn
    settings.autoInspect none
  turn := turn + 1
  tick := none

/-- The tick of a task has ended. -/
def ended (x : Scheduled) (task : Nat) (m : System) : Scheduled where
  system := m
  schedule := x.schedule.endTick task m.now x.turn
  turn := x.turn + 1
  tick := none

/-- The tick of a task has moved, up to where it waits or to its end. -/
def ticked (x : Scheduled) (task : Nat) (m : System) : Progress Frame Result → Scheduled
  | .paused frame => { x with system := m, tick := some ⟨task, frame⟩ }
  | .done _ => x.ended task m

/-- One move of a manager with its schedule. -/
inductive Moves : Scheduled → Scheduled → Prop
  /-- The manager moves at its moment; a tick that runs waits meanwhile. -/
  | act (x : Scheduled) (k : Option Command) (m : System) (h : Affine.Moves .calm x.system k m)
      (hnow : m.now = x.system.now) (htick : ∀ t ∈ x.tick, ⟨.tick, t.frame⟩ ∈ m.ongoing) :
      Moves x { x with system := m }
  /-- Another period is stored. -/
  | setPeriod (x : Scheduled) (period : Duration) :
      Moves x { x with schedule := x.schedule.setPeriod period }
  /-- Time passes, up to the next tick at most. -/
  | pass (x : Scheduled) (now : Nat) (htick : x.tick = none) (h : x.system.now ≤ now)
      (hdue : ∀ due ∈ x.schedule.due?, now ≤ due) :
      Moves x { x with system := { x.system with now } }
  /-- A tick that is due begins. -/
  | begin (x : Scheduled) (task : Task) (htask : x.schedule.task = some task)
      (hdue : task.due = some x.system.now)
      (h : ∀ o ∈ x.system.ongoing, o.frame.call.yields) :
      Moves x (ticked { x with schedule := x.schedule.beginTick } task.id
        (x.system.started .tick) (start x.system.state x.system.now .tick).2)
  /-- A tick goes on. -/
  | resume (x : Scheduled) (task : Nat) (frame : Frame) (before later : List Ongoing)
      (a : frame.call.Answer) (htick : x.tick = some ⟨task, frame⟩)
      (hm : x.system.ongoing = before ++ ⟨.tick, frame⟩ :: later)
      (h : ∀ p ∈ before ++ later, p.frame.call.yields) (ha : x.system.Admits frame.call a) :
      Moves x (x.ticked task (x.system.resumed ⟨.tick, frame⟩ a (before ++ later))
        (Affine.resume x.system.state x.system.now frame a).2)
  /-- A tick ends because an observer fails in it. -/
  | fail (x : Scheduled) (task : Nat) (frame : Frame) (before later : List Ongoing)
      (htick : x.tick = some ⟨task, frame⟩)
      (hm : x.system.ongoing = before ++ ⟨.tick, frame⟩ :: later)
      (h : ∀ p ∈ before ++ later, p.frame.call.yields) (ho : frame.call.tells) :
      Moves x (x.ended task { x.system with ongoing := before ++ later })

/-- What a manager that was made with some settings gets to. -/
inductive Reachable (settings : ManagerSettings) : Scheduled → Prop
  | initial (factory : Factory) (now turn : Nat) :
      Reachable settings (.initial settings factory now turn)
  | next {x y : Scheduled} : Reachable settings x → Moves x y → Reachable settings y

variable {settings : ManagerSettings} {x y : Scheduled}

theorem Moves.system (h : Moves x y) : ∃ k, Affine.Moves .calm x.system k y.system := by
  have ticked : ∀ {x : Scheduled} {task : Nat} {m : System} {p : Progress Frame Result},
      (x.ticked task m p).system = m := by
    intro x task m p
    cases p <;> rfl
  cases h with
  | act k m h hnow htick => exact ⟨k, h⟩
  | setPeriod period => exact ⟨none, .pass x.system x.system.now (Nat.le_refl _)⟩
  | pass now htick h hdue => exact ⟨none, .pass x.system now h⟩
  | begin task htask hdue h =>
    rw [ticked]
    exact ⟨_, .start x.system .tick h⟩
  | resume task frame before later a htick hm h ha =>
    rw [ticked]
    exact ⟨_, .resume x.system before ⟨.tick, frame⟩ later a hm h ha⟩
  | fail task frame before later htick hm h ho =>
    exact ⟨_, .fail x.system before ⟨.tick, frame⟩ later hm h ho⟩

theorem Reachable.system (hx : x.Reachable settings) :
    Affine.Reachable .calm x.system ∧ x.system.state.settings = settings := by
  induction hx with
  | initial factory now turn => exact ⟨.initial settings factory now, rfl⟩
  | next _ hmove ih =>
    obtain ⟨hreach, hsettings⟩ := ih
    obtain ⟨k, h⟩ := hmove.system
    exact ⟨hreach.next h, (h.settings hreach).trans hsettings⟩

/-! ### On time -/

/-- Between two ticks the next is due a period after the last one, for which no registered slot is
late. While a tick runs, late slots are those its frame shows. -/
def Punctual (period : Duration) (x : Scheduled) : Prop :=
  match x.tick with
  | none => ∃ id turn last, x.schedule.task = some ⟨id, period, some (period.after last), turn⟩ ∧
    last ≤ x.system.now ∧ x.system.now ≤ period.after last ∧ x.system.state.Timely last
  | some t => ∃ turn, x.schedule.task = some ⟨t.task, period, none, turn⟩ ∧
    ⟨.tick, t.frame⟩ ∈ x.system.ongoing ∧ t.frame.Covers x.system.now x.system.state

theorem punctual_initial (factory : Factory) (now turn : Nat)
    (hauto : settings.autoInspect = true) :
    (initial settings factory now turn).Punctual settings.schedulePeriod := by
  refine ⟨turn, turn, now, ?_, Nat.le_refl _, Nat.le_add_right _ _, ?_⟩
  · simp [initial, Schedule.setEnabled, hauto]
  · rintro e c id s ⟨⟨i, hi⟩, -⟩
    cases hi

theorem punctual_ended {period : Duration} {task turn : Nat} {m : System}
    (hx : x.schedule.task = some ⟨task, period, none, turn⟩) (hm : m.state.Timely m.now) :
    (x.ended task m).Punctual period := by
  refine ⟨task, x.turn, m.now, ?_, Nat.le_refl _, Nat.le_add_right _ _, hm⟩
  simp [ended, Schedule.endTick, hx]

theorem punctual_ticked {period : Duration} {task turn : Nat} {m : System} {seen : List Event}
    {rest : List Ongoing} {step : Step}
    (hx : x.schedule.task = some ⟨task, period, none, turn⟩) (hm : step.Covered m.now) :
    (x.ticked task (m.moved .tick seen rest step) step.2).Punctual period := by
  obtain ⟨s, p⟩ := step
  cases p with
  | paused f =>
    refine ⟨turn, hx, ?_, hm⟩
    show _ ∈ [⟨.tick, f⟩] ++ rest
    exact List.mem_cons_self
  | done r => exact punctual_ended hx hm

/-- **Every move keeps the inspections on time.** -/
theorem Moves.punctual {period : Duration} (hreach : Affine.Reachable .calm x.system)
    (h : Moves x y) (hx : x.Punctual period) : y.Punctual period := by
  cases h with
  | act k m h hnow htick =>
    unfold Punctual at hx ⊢
    cases ht : x.tick with
    | none =>
      simp only [ht] at hx ⊢
      obtain ⟨id, turn, last, htask, hlast, hdue, htimely⟩ := hx
      exact ⟨id, turn, last, htask, hnow ▸ hlast, hnow ▸ hdue, h.timely hreach hlast htimely⟩
    | some t =>
      simp only [ht] at hx ⊢
      obtain ⟨turn, htask, hongoing, hcovers⟩ := hx
      have hstill := htick t ht
      exact ⟨turn, htask, hstill, hnow ▸ h.covers hreach hcovers hongoing hstill⟩
  | setPeriod period' => exact hx
  | pass now htick h hdue =>
    unfold Punctual at hx ⊢
    simp only [htick] at hx ⊢
    obtain ⟨id, turn, last, htask, hlast, -, htimely⟩ := hx
    refine ⟨id, turn, last, htask, Nat.le_trans hlast h, hdue _ ?_, htimely⟩
    simp [Schedule.due?, htask]
  | begin task htask hdue hyields =>
    have hperiod : task.period = period := by
      unfold Punctual at hx
      cases ht : x.tick with
      | none =>
        simp only [ht, htask] at hx
        obtain ⟨id, turn, last, heq, -⟩ := hx
        cases heq
        rfl
      | some t =>
        simp only [ht, htask] at hx
        obtain ⟨turn, heq, -⟩ := hx
        cases heq
        rfl
    have hbegun : x.schedule.beginTick.task = some ⟨task.id, period, none, task.turn⟩ := by
      rw [Schedule.beginTick, htask, ← hperiod]
      rfl
    exact punctual_ticked (x := { x with schedule := x.schedule.beginTick }) hbegun
      (hreach.covered_start hyields)
  | resume task frame before later a htick hm hyields ha =>
    simp only [Punctual, htick] at hx
    obtain ⟨turn, htask, -, hcovers⟩ := hx
    exact punctual_ticked htask (hreach.covered_resume hm hyields hcovers a)
  | fail task frame before later htick hm hyields ho =>
    simp only [Punctual, htick] at hx
    obtain ⟨turn, htask, -, hcovers⟩ := hx
    have hf : frame.call.yields := Frame.yields_of_tells ho
    exact punctual_ended htask ((Frame.covers_of_yields hf _).mp hcovers)

theorem Reachable.punctual (hauto : settings.autoInspect = true) (hx : x.Reachable settings) :
    x.Punctual settings.schedulePeriod := by
  induction hx with
  | initial factory now turn => exact punctual_initial factory now turn hauto
  | next hx hmove ih => exact hmove.punctual hx.system.1 ih

end Scheduled

/-- **No slot is forgotten for a whole period.** While inspections are switched on, the next tick is
due within a period. Unless it is due now, every lent slot has been lent for less than its timeout
and a period, and every idle slot idle for less than its timeout and a period. -/
theorem forgotten_at_most_a_period {settings : ManagerSettings}
    (hauto : settings.autoInspect = true) {x : Scheduled} (hx : x.Reachable settings)
    (htick : x.tick = none) :
    ∃ due, x.schedule.due? = some due ∧ x.system.now ≤ due ∧
      due ≤ settings.schedulePeriod.after x.system.now ∧
      (x.system.now < due → ∀ i c id s, x.system.state.registry.slot? i c = some id →
        x.system.state.slot? id = some s →
        (s.borrowed = true → (Duration.elapsed x.system.now s.borrowTime).nanos <
          settings.borrowTimeout.nanos + settings.schedulePeriod.nanos) ∧
        (s.borrowed = false → (Duration.elapsed x.system.now s.releaseTime).nanos <
          settings.idleTimeout.nanos + settings.schedulePeriod.nanos)) := by
  have hpunctual := hx.punctual hauto
  simp only [Scheduled.Punctual, htick] at hpunctual
  obtain ⟨task, turn, last, htask, hlast, hdue, htimely⟩ := hpunctual
  refine ⟨settings.schedulePeriod.after last, ?_, hdue, Nat.add_le_add_right hlast _, ?_⟩
  · simp [Schedule.due?, htask]
  · intro hnow i c id s hslot hs
    obtain ⟨e, he, hin⟩ := Option.bind_eq_some_iff.mp hslot
    have hkept : ¬ x.system.state.policy.Late last s :=
      fun hlate => htimely e c id s ⟨⟨i, he⟩, hin⟩ hs hlate
    rw [State.policy, hx.system.2] at hkept
    exact RetentionPolicy.elapsed_of_not_late hkept hlast hnow

/-! ### A tick in which an observer fails -/

namespace Scheduled

/-- A period in which both timeouts run out. -/
def brief : ManagerSettings :=
  { borrowTimeout := ⟨5⟩, idleTimeout := ⟨3⟩, schedulePeriod := ⟨10⟩ }

def briefRequest : Request := ⟨⟨"host", 22, "user", "password"⟩, ⟨1⟩, .sftp⟩

/-- A connection is being opened. -/
def opening : Scheduled :=
  let x := initial brief .faithful 0 0
  { x with system := x.system.started (.borrow briefRequest) }

/-- It is lent. -/
def lent : Scheduled :=
  { opening with
    system := opening.system.resumed
      ⟨.borrow briefRequest, .opening briefRequest 0 .sftp (.ofMillis 5000)⟩
      ⟨⟨1, .sftp⟩, none⟩ [] }

/-- An observer is attached that fails in every tick. -/
def watched : Scheduled :=
  { lent with
    system := { lent.system with
      state := { lent.system.state with
        observers := lent.system.state.observers ++ [.recorder ⟨"failing", true, true⟩] } } }

/-- The first tick is due. -/
def due : Scheduled := { watched with system := { watched.system with now := 10 } }

/-- It is shown to the observer. -/
def shown : Scheduled :=
  ticked { due with schedule := due.schedule.beginTick } 0 (due.system.started .tick)
    (start due.system.state 10 .tick).2

/-- The observer fails, and the second tick is all but due. -/
def failed : Scheduled :=
  let x := shown.ended 0 { shown.system with ongoing := [] }
  { x with system := { x.system with now := 19 } }

theorem reachable_failed : Reachable brief failed := by
  have hopening : Reachable brief opening :=
    .next (.initial .faithful 0 0) (.act _ _ _ (.start _ _ fun o ho => by cases ho) rfl
      fun t ht => by cases ht)
  have hlent : Reachable brief lent :=
    .next hopening (.act _ _ _ (.resume _ [] ⟨.borrow briefRequest, .opening briefRequest 0 .sftp
      (.ofMillis 5000)⟩ [] ⟨⟨1, .sftp⟩, none⟩ rfl (by simp) ⟨by decide, rfl⟩) rfl
      fun t ht => by cases ht)
  have hwatched : Reachable brief watched :=
    .next hlent (.act _ _ _ (.attach _ _) rfl fun t ht => by cases ht)
  have hdue : Reachable brief due :=
    .next hwatched (.pass _ 10 rfl (by decide) (by decide))
  have hshown : Reachable brief shown :=
    .next hdue (.begin due ⟨0, ⟨10⟩, some 10, 0⟩ rfl rfl fun o ho => by cases ho)
  have hended : Reachable brief (shown.ended 0 { shown.system with ongoing := [] }) :=
    .next hshown (.fail shown 0 (.ticking ⟨"failing", true, true⟩ []) [] [] rfl rfl (by simp) rfl)
  exact .next hended (.pass _ 19 rfl (by decide) (by decide))

end Scheduled

/-- The connection was lent for too long at the first tick and given back then; the observer that
failed in that tick has not kept the next one from its time. -/
theorem forgotten_at_most_a_period_failing : ∃ x : Scheduled, x.Reachable Scheduled.brief ∧
    x.system.now = 19 ∧ x.schedule.due? = some 20 ∧ ∃ s, x.system.state.slot? 0 = some s ∧
      s.borrowed = false ∧ (Duration.elapsed x.system.now s.releaseTime).nanos < 3 + 10 := by
  obtain ⟨due, hdue, -, -, hbound⟩ :=
    forgotten_at_most_a_period rfl Scheduled.reachable_failed rfl
  have hsame : Scheduled.failed.schedule.due? = some 20 := by decide
  rw [hsame] at hdue
  cases hdue
  have hslot : Scheduled.failed.system.state.slot? 0 =
      some ⟨⟨1⟩, some ⟨1, .sftp⟩, false, 0, 10⟩ := by decide
  exact ⟨_, Scheduled.reachable_failed, rfl, hsame, _, hslot, rfl,
    (hbound (by decide) Scheduled.briefRequest.identity ⟨1⟩ 0 _ (by decide) hslot).2 rfl⟩

end ConnectionLeasing.Affine

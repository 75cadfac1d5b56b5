import ConnectionLeasing.Proofs.Chronicle
import ConnectionLeasing.Schedule
import Mathlib.Data.List.Count
import Mathlib.Logic.Relation

/-!
# When the tasks of schedules tick

A `Timetable` is a number of schedules on one clock, with the chronicle of all that has happened to
them. Schedules are switched and stopped at any time, also while a tick runs, and so is a tick that
runs ended at any time, by whatever ended it. The clock moves up to what is due next at most.

`Shift` lists what a move can do to one schedule; every invariant is proved from it.

* `Sound`: what holds of every timetable; `Reachable.sound`.
* `OnBeat`: after a schedule was switched on, its ticks so far and the next one.
* `Resting`: after it was switched off or stopped, or could not start, there are none.
* `Past`: a task that was replaced or stopped ticks no more.
-/

namespace ConnectionLeasing

/-! ### Timetables -/

structure Timetable where
  schedules : List Schedule
  now : Nat
  /-- The turn of the next wait. -/
  turn : Nat
  chronicle : Chronicle

namespace Timetable

/-- Enters something that happens now. -/
def record (x : Timetable) (h : Happening) : Timetable :=
  { x with chronicle := x.chronicle ++ [⟨x.now, h⟩] }

def change (x : Timetable) (i : Nat) (f : Schedule → Schedule) : Timetable :=
  { x with schedules := x.schedules.modify i f }

/-- There is a new schedule, switched off. -/
def add (x : Timetable) (period : Duration) : Timetable :=
  { x.record (.added x.schedules.length period) with schedules := x.schedules ++ [{ period }] }

def switch (x : Timetable) (i : Nat) (on : Bool) (fault : Option String) : Timetable :=
  { (x.change i (·.setEnabled x.now x.turn on fault)).record (.switched i on fault) with
    turn := x.turn + 1 }

def stop (x : Timetable) (i : Nat) : Timetable := (x.change i .stop).record (.stopped i)

/-- A period is stored. -/
def store (x : Timetable) (i : Nat) (period : Duration) : Timetable :=
  (x.change i (·.setPeriod period)).record (.stored i period)

/-- A tick of a task begins. -/
def tick (x : Timetable) (i id : Nat) (observers : List Observer) : Timetable :=
  (x.change i .beginTick).record (.began ⟨i, id, x.now⟩ observers)

/-- A tick ends. -/
def finish (x : Timetable) (t : Tick) (failure : Option String) : Timetable :=
  { (x.change t.schedule (·.endTick t.task x.now x.turn)).record (.ended t failure) with
    turn := x.turn + 1 }

/-- One move, with what happens in it, if anything. -/
inductive Moves : Timetable → Option Happening → Timetable → Prop
  | add (x : Timetable) (period : Duration) :
      Moves x (some (.added x.schedules.length period)) (x.add period)
  | switch (x : Timetable) (i : Nat) (on : Bool) (fault : Option String) :
      Moves x (some (.switched i on fault)) (x.switch i on fault)
  | stop (x : Timetable) (i : Nat) : Moves x (some (.stopped i)) (x.stop i)
  | store (x : Timetable) (i : Nat) (period : Duration) :
      Moves x (some (.stored i period)) (x.store i period)
  /-- A tick that is due begins. -/
  | tick (x : Timetable) (i : Nat) (s : Schedule) (t : Task) (observers : List Observer)
      (hs : x.schedules[i]? = some s) (ht : s.task = some t) (hdue : t.due = some x.now) :
      Moves x (some (.began ⟨i, t.id, x.now⟩ observers)) (x.tick i t.id observers)
  /-- An observer is shown a tick. -/
  | shown (x : Timetable) (o : Recorder) : Moves x (some (.shown o)) (x.record (.shown o))
  /-- A tick that runs ends. -/
  | finish (x : Timetable) (t : Tick) (failure : Option String) (ht : t ∈ x.chronicle.running) :
      Moves x (some (.ended t failure)) (x.finish t failure)
  /-- Time passes, up to what is due next at most. -/
  | pass (x : Timetable) (now : Nat) (h : x.now ≤ now)
      (hdue : ∀ s ∈ x.schedules, ∀ due ∈ s.due?, now ≤ due) : Moves x none { x with now }

/-- What one gets to from no schedules at all. -/
inductive Reachable : Timetable → Prop
  | initial (now turn : Nat) : Reachable ⟨[], now, turn, []⟩
  | next {x y : Timetable} {e : Option Happening} : Reachable x → Moves x e y → Reachable y

/-- A run from one timetable to another. -/
abbrev Run : Timetable → Timetable → Prop := Relation.ReflTransGen fun x y => ∃ e, Moves x e y

/-- A run in which schedule `i` is neither switched nor stopped. -/
abbrev Steady (i : Nat) : Timetable → Timetable → Prop :=
  Relation.ReflTransGen fun x y => ∃ e, e.bind Happening.resets? ≠ some i ∧ Moves x e y

variable {x y z : Timetable} {i : Nat} {e : Option Happening}

theorem Run.keeps {P : Timetable → Prop} (hP : ∀ x e y, Moves x e y → P x → P y) (hrun : Run x y)
    (hx : P x) : P y := by
  induction hrun with
  | refl => exact hx
  | tail _ hmove ih =>
    obtain ⟨e, hmove⟩ := hmove
    exact hP _ e _ hmove ih

theorem Run.reachable (hrun : Run x y) (hx : x.Reachable) : y.Reachable :=
  hrun.keeps (fun _ _ _ hmove hx => hx.next hmove) hx

theorem Steady.run (h : Steady i x y) : Run x y :=
  Relation.ReflTransGen.mono (fun _ _ ⟨e, _, hmove⟩ => ⟨e, hmove⟩) _ _ h

theorem Moves.chronicle (h : Moves x e y) :
    y.chronicle = x.chronicle ++ (e.map fun h => (⟨x.now, h⟩ : Happened)).toList := by
  cases h with
  | pass now h hdue => exact (List.append_nil _).symm
  | add | switch | stop | store | tick | shown | finish => rfl

theorem Moves.grows (h : Moves x e y) : x.now ≤ y.now ∧ x.turn ≤ y.turn := by
  cases h with
  | switch | finish => exact ⟨Nat.le_refl _, Nat.le_succ _⟩
  | pass now h hdue => exact ⟨h, Nat.le_refl _⟩
  | add | stop | store | tick | shown => exact ⟨Nat.le_refl _, Nat.le_refl _⟩

theorem Run.grows (hrun : Run x y) : x.now ≤ y.now ∧ x.turn ≤ y.turn := by
  refine hrun.keeps (P := fun y => x.now ≤ y.now ∧ x.turn ≤ y.turn) (fun u e v hmove hu => ?_)
    ⟨Nat.le_refl _, Nat.le_refl _⟩
  exact ⟨Nat.le_trans hu.1 hmove.grows.1, Nat.le_trans hu.2 hmove.grows.2⟩

theorem Run.chronicle (hrun : Run x y) : x.chronicle <+: y.chronicle := by
  refine hrun.keeps (P := fun y => x.chronicle <+: y.chronicle) (fun u e v hmove hu => ?_)
    List.prefix_rfl
  rw [hmove.chronicle]
  exact hu.trans (List.prefix_append _ _)

theorem ticks_record (x : Timetable) (h : Happening) :
    (x.record h).chronicle.ticks = x.chronicle.ticks ++ h.begun?.toList :=
  Chronicle.ticks_concat x.chronicle ⟨x.now, h⟩

theorem Moves.running {h : Happening} (hmove : Moves x (some h) y) :
    y.chronicle.running = h.running x.chronicle.running := by
  rw [hmove.chronicle]
  exact Chronicle.running_concat x.chronicle ⟨x.now, h⟩

/-! ### What holds of every timetable -/

/-- Tasks are numbered below the present turn, no tick has begun later than now, and nothing is
overdue. -/
structure Sound (x : Timetable) : Prop where
  numbered : ∀ s ∈ x.schedules, ∀ t ∈ s.task, t.id < x.turn
  begun : ∀ t ∈ x.chronicle.ticks, t.task < x.turn ∧ t.moment ≤ x.now
  ahead : ∀ s ∈ x.schedules, ∀ due ∈ s.due?, x.now ≤ due

theorem mem_change {f : Schedule → Schedule} {s : Schedule} (hs : s ∈ (x.change i f).schedules) :
    s ∈ x.schedules ∨ ∃ old ∈ x.schedules, s = f old := by
  obtain ⟨n, hn⟩ := List.mem_iff_getElem?.mp hs
  have hn' : (x.schedules.modify i f)[n]? = some s := hn
  rw [List.getElem?_modify] at hn'
  obtain ⟨old, hold, rfl⟩ := Option.map_eq_some_iff.mp hn'
  have hmem : old ∈ x.schedules := List.mem_of_getElem? hold
  split
  · exact .inr ⟨old, hmem, rfl⟩
  · exact .inl hmem

theorem Sound.change (hx : x.Sound) {f : Schedule → Schedule} {turn : Nat} (hturn : x.turn ≤ turn)
    {h : Happening} (hbegun : ∀ t ∈ h.begun?, t.task < turn ∧ t.moment ≤ x.now)
    (hnumbered : ∀ s ∈ x.schedules, ∀ t ∈ (f s).task, t.id < turn)
    (hahead : ∀ s ∈ x.schedules, ∀ due ∈ (f s).due?, x.now ≤ due) :
    { (x.change i f).record h with turn }.Sound where
  numbered s hs t ht := by
    rcases mem_change hs with hs | ⟨old, hold, rfl⟩
    · exact Nat.lt_of_lt_of_le (hx.numbered s hs t ht) hturn
    · exact hnumbered old hold t ht
  begun t ht := by
    have ht : t ∈ (x.record h).chronicle.ticks := ht
    rw [ticks_record] at ht
    rcases List.mem_append.mp ht with ht | ht
    · exact ⟨Nat.lt_of_lt_of_le (hx.begun t ht).1 hturn, (hx.begun t ht).2⟩
    · exact hbegun t (Option.mem_toList.mp ht)
  ahead s hs due hdue := by
    rcases mem_change hs with hs | ⟨old, hold, rfl⟩
    · exact hx.ahead s hs due hdue
    · exact hahead old hold due hdue

theorem Sound.record (hx : x.Sound) {h : Happening} (hnone : h.begun? = none) :
    (x.record h).Sound := by
  refine ⟨hx.numbered, fun t ht => ?_, hx.ahead⟩
  rw [ticks_record, hnone, Option.toList_none, List.append_nil] at ht
  exact hx.begun t ht

theorem Sound.add (hx : x.Sound) (period : Duration) : (x.add period).Sound := by
  have old : ∀ {s new : Schedule}, s ∈ x.schedules ++ [new] → s ∈ x.schedules ∨ s = new :=
    fun hs => (List.mem_append.mp hs).imp_right List.mem_singleton.mp
  have hrecorded := hx.record (h := .added x.schedules.length period) rfl
  refine ⟨fun s hs t ht => ?_, hrecorded.begun, fun s hs due hdue => ?_⟩
  · rcases old hs with hs | rfl
    · exact hx.numbered s hs t ht
    · cases ht
  · rcases old hs with hs | rfl
    · exact hx.ahead s hs due hdue
    · cases hdue

theorem Sound.switch (hx : x.Sound) (i : Nat) (on : Bool) (fault : Option String) :
    (x.switch i on fault).Sound := by
  refine hx.change (Nat.le_succ _) (fun t ht => by cases ht) (fun s hs t ht => ?_)
    fun s hs due hdue => ?_
  · cases on <;> cases fault <;> cases ht
    exact Nat.lt_succ_self _
  · cases on <;> cases fault <;> cases hdue
    exact Nat.le_add_right _ _

/-- A tick that begins is of a task with a number, and its task is not due any more. -/
theorem Sound.tick (hx : x.Sound) (i : Nat) {id : Nat} (hid : id < x.turn)
    (observers : List Observer) : (x.tick i id observers).Sound := by
  refine hx.change (Nat.le_refl _) (fun t ht => ?_) (fun s hs t ht => ?_) fun s hs d hd => ?_
  · obtain rfl := Option.some.inj ht
    exact ⟨hid, Nat.le_refl _⟩
  · obtain ⟨t, hold, rfl⟩ := Option.map_eq_some_iff.mp ht
    exact hx.numbered s hs t hold
  · rw [Schedule.due?, Schedule.beginTick] at hd
    cases hold : s.task <;> simp [hold] at hd

theorem Sound.finish (hx : x.Sound) (t : Tick) (failure : Option String) :
    (x.finish t failure).Sound := by
  refine hx.change (Nat.le_succ _) (fun t ht => by cases ht) (fun s hs u hu => ?_)
    fun s hs d hd => ?_
  · obtain ⟨u, hold, rfl⟩ := Option.map_eq_some_iff.mp hu
    have hlt := hx.numbered s hs u hold
    split <;> exact Nat.lt_succ_of_lt hlt
  · obtain ⟨u', hu', hd⟩ := Option.bind_eq_some_iff.mp hd
    obtain ⟨u, hold, rfl⟩ := Option.map_eq_some_iff.mp hu'
    split at hd
    · cases hd
      exact Nat.le_add_right _ _
    · exact hx.ahead s hs d (Option.bind_eq_some_iff.mpr ⟨u, hold, hd⟩)

theorem Sound.next (hx : x.Sound) (h : Moves x e y) : y.Sound := by
  cases h with
  | add period => exact hx.add period
  | switch i on fault => exact hx.switch i on fault
  | stop i =>
    exact hx.change (Nat.le_refl _) (fun _ ht => by cases ht) (fun _ _ _ ht => by cases ht)
      fun _ _ _ hdue => by cases hdue
  | store i period =>
    exact hx.change (Nat.le_refl _) (fun _ ht => by cases ht) hx.numbered hx.ahead
  | tick i s t observers hs ht hdue =>
    exact hx.tick i (hx.numbered s (List.mem_of_getElem? hs) t ht) observers
  | shown o => exact hx.record rfl
  | finish t failure ht => exact hx.finish t failure
  | pass now h hdue =>
    exact ⟨hx.numbered, fun t ht => ⟨(hx.begun t ht).1, Nat.le_trans (hx.begun t ht).2 h⟩, hdue⟩

theorem Reachable.sound (hx : x.Reachable) : x.Sound := by
  induction hx with
  | initial now turn => constructor <;> simp [Chronicle.ticks]
  | next _ hmove ih => exact ih.next hmove

/-- If no tick has taken any time in the end, none had before. -/
theorem Moves.instant (h : Moves x e y) (hx : x.Sound) (hy : y.chronicle.Instant y.now) :
    x.chronicle.Instant x.now := by
  obtain ⟨hended, hrunning⟩ := hy
  rw [h.chronicle] at hended
  refine ⟨fun h' hmem => hended h' (List.mem_append_left _ hmem), fun t ht => ?_⟩
  cases h with
  | add | switch | stop | store | shown =>
    refine hrunning t ?_
    rwa [Moves.running (by constructor)]
  | tick i s u observers hs hu hdue =>
    refine hrunning t ?_
    rw [Moves.running (.tick x i s u observers hs hu hdue)]
    exact List.mem_cons_of_mem _ ht
  | finish u failure hu =>
    by_cases htu : t = u
    · subst htu
      exact (hended _ (List.mem_append_right _ (List.mem_singleton_self _)) t rfl).symm
    · refine hrunning t ?_
      rw [Moves.running (.finish x u failure hu)]
      exact (List.mem_erase_of_ne htu).mpr ht
  | pass now h hdue =>
    have hnow : t.moment = now := hrunning t ht
    have hle := (hx.begun t (Chronicle.mem_ticks_of_running ht)).2
    omega

/-! ### What a move does to one schedule -/

/-- What a move from `x` to `y`, in which `e` happens, does to schedule `i`. -/
inductive Shift (i : Nat) (x : Timetable) (s : Schedule) :
    Option Happening → Timetable → Schedule → Prop
  /-- Nothing, but for its stored period. -/
  | still {e : Option Happening} {y : Timetable} {s' : Schedule}
      (he : e.bind Happening.resets? ≠ some i) (henabled : s'.enabled = s.enabled)
      (htask : s'.task = s.task) (hticks : y.chronicle.ticksOf i = x.chronicle.ticksOf i)
      (hrunning : ∀ id, y.chronicle.runningOf i id = x.chronicle.runningOf i id) :
      Shift i x s e y s'
  | switched (on : Bool) (fault : Option String) :
      Shift i x s (some (.switched i on fault)) (x.switch i on fault)
        (s.setEnabled x.now x.turn on fault)
  | stopped : Shift i x s (some (.stopped i)) (x.stop i) s.stop
  | begun (t : Task) (observers : List Observer) (ht : s.task = some t)
      (hdue : t.due = some x.now) :
      Shift i x s (some (.began ⟨i, t.id, x.now⟩ observers)) (x.tick i t.id observers) s.beginTick
  | finished (t : Tick) (failure : Option String) (ht : t ∈ x.chronicle.running)
      (hi : t.schedule = i) :
      Shift i x s (some (.ended t failure)) (x.finish t failure) (s.endTick t.task x.now x.turn)

theorem getElem?_change (f : Schedule → Schedule) (n : Nat) : (x.change i f).schedules[n]? =
    if i = n then x.schedules[n]?.map f else x.schedules[n]? := by
  show (x.schedules.modify i f)[n]? = _
  rw [List.getElem?_modify]
  split <;> simp

theorem Moves.ticksOf (h : Moves x e y) (i : Nat) : y.chronicle.ticksOf i =
    x.chronicle.ticksOf i ++ (e.bind Happening.begun?).toList.filter (·.schedule = i) := by
  rw [h.chronicle, Chronicle.ticksOf_append]
  cases e with
  | none => rfl
  | some e => exact congrArg _ (Chronicle.ticksOf_concat [] ⟨x.now, e⟩ i)

theorem Moves.still (h : Moves x e y) {s s' : Schedule} (he : e.bind Happening.resets? ≠ some i)
    (htick : ∀ t ∈ e.bind Happening.tick?, t.schedule ≠ i) (henabled : s'.enabled = s.enabled)
    (htask : s'.task = s.task) : Shift i x s e y s' := by
  refine .still he henabled htask ?_ fun id => ?_
  · rw [h.ticksOf i]
    cases e with
    | none => exact List.append_nil _
    | some e =>
      cases e with
      | began t observers =>
        have hne : t.schedule ≠ i := htick t rfl
        simp [Happening.begun?, hne]
      | _ => exact List.append_nil _
  · cases e with
    | none =>
      rw [Chronicle.runningOf, h.chronicle]
      exact congrArg (fun l => Chronicle.runningOf l i id) (List.append_nil _)
    | some e =>
      rw [Chronicle.runningOf, h.running]
      cases e with
      | began t observers =>
        have hne : t.schedule ≠ i := htick t rfl
        rw [Happening.running, List.countP_cons_of_neg (by simp [hne])]
        rfl
      | ended t failure =>
        have hne : t.schedule ≠ i := htick t rfl
        rw [Happening.running, List.countP_erase]
        simp [hne, Chronicle.runningOf]
      | _ => rfl

theorem Moves.shift (h : Moves x e y) {s : Schedule} (hs : x.schedules[i]? = some s) :
    ∃ s', y.schedules[i]? = some s' ∧ Shift i x s e y s' := by
  have changed : ∀ (f : Schedule → Schedule), (x.change i f).schedules[i]? = some (f s) := by
    intro f
    rw [getElem?_change, if_pos rfl, hs]
    rfl
  have apart : ∀ {n : Nat} (f : Schedule → Schedule), n ≠ i →
      (x.change n f).schedules[i]? = some s := by
    intro n f hne
    rw [getElem?_change, if_neg hne]
    exact hs
  cases h with
  | add period =>
    have hlt := (List.getElem?_eq_some_iff.mp hs).1
    refine ⟨s, (List.getElem?_append_left hlt).trans hs, ?_⟩
    exact (Moves.add x period).still (by simp [Happening.resets?]) (by simp [Happening.tick?]) rfl
      rfl
  | switch n on fault =>
    by_cases hn : n = i
    · subst hn
      exact ⟨_, changed _, .switched on fault⟩
    · exact ⟨s, apart _ hn, (Moves.switch x n on fault).still (by simpa [Happening.resets?] using hn)
        (by simp [Happening.tick?]) rfl rfl⟩
  | stop n =>
    by_cases hn : n = i
    · subst hn
      exact ⟨_, changed _, .stopped⟩
    · exact ⟨s, apart _ hn, (Moves.stop x n).still (by simpa [Happening.resets?] using hn)
        (by simp [Happening.tick?]) rfl rfl⟩
  | store n period =>
    have hstored : ∃ s', (x.store n period).schedules[i]? = some s' ∧ s'.enabled = s.enabled ∧
        s'.task = s.task := by
      by_cases hn : n = i
      · subst hn
        exact ⟨_, changed _, rfl, rfl⟩
      · exact ⟨s, apart _ hn, rfl, rfl⟩
    obtain ⟨s', hs', henabled, htask⟩ := hstored
    exact ⟨s', hs', (Moves.store x n period).still (by simp [Happening.resets?])
      (by simp [Happening.tick?]) henabled htask⟩
  | tick n s' t observers hs' ht hdue =>
    by_cases hn : n = i
    · subst hn
      obtain rfl : s = s' := Option.some.inj (hs.symm.trans hs')
      exact ⟨_, changed _, .begun t observers ht hdue⟩
    · exact ⟨s, apart _ hn, (Moves.tick x n s' t observers hs' ht hdue).still
        (by simp [Happening.resets?]) (by simpa [Happening.tick?] using hn) rfl rfl⟩
  | shown o =>
    exact ⟨s, hs, (Moves.shown x o).still (by simp [Happening.resets?]) (by simp [Happening.tick?])
      rfl rfl⟩
  | finish t failure ht =>
    by_cases hn : t.schedule = i
    · subst hn
      exact ⟨_, changed _, .finished t failure ht rfl⟩
    · exact ⟨s, apart _ hn, (Moves.finish x t failure ht).still (by simp [Happening.resets?])
        (by simpa [Happening.tick?] using hn) rfl rfl⟩
  | pass now h hdue =>
    exact ⟨s, hs, (Moves.pass x now h hdue).still (by simp) (by simp) rfl rfl⟩

theorem Moves.now_eq (h : Moves x e y) (hx : x.Sound) (hy : y.chronicle.Instant y.now) {t : Tick}
    (ht : t ∈ x.chronicle.running) : y.now = x.now := by
  cases h with
  | pass now h hdue =>
    have hnow : t.moment = now := hy.2 t ht
    have hle := (hx.begun t (Chronicle.mem_ticks_of_running ht)).2
    show now = x.now
    omega
  | _ => rfl

theorem ticksOf_tick (id : Nat) (observers : List Observer) :
    (x.tick i id observers).chronicle.ticksOf i = x.chronicle.ticksOf i ++ [⟨i, id, x.now⟩] := by
  refine (Chronicle.ticksOf_concat x.chronicle _ i).trans (congrArg _ ?_)
  simp [Happening.begun?]

theorem runningOf_tick (id : Nat) (observers : List Observer) :
    (x.tick i id observers).chronicle.runningOf i id = x.chronicle.runningOf i id + 1 := by
  have hrunning : (x.tick i id observers).chronicle.running = ⟨i, id, x.now⟩ :: x.chronicle.running :=
    Chronicle.running_concat x.chronicle _
  rw [Chronicle.runningOf, hrunning, List.countP_cons_of_pos (by simp)]
  rfl

theorem ticksOf_finish (t : Tick) (failure : Option String) (i : Nat) :
    (x.finish t failure).chronicle.ticksOf i = x.chronicle.ticksOf i :=
  (Chronicle.ticksOf_concat x.chronicle _ i).trans (List.append_nil _)

theorem runningOf_finish {t : Tick} (ht : t ∈ x.chronicle.running) (failure : Option String)
    (i id : Nat) : x.chronicle.runningOf i id = (x.finish t failure).chronicle.runningOf i id +
      if t.schedule = i ∧ t.task = id then 1 else 0 := by
  have hrunning : (x.finish t failure).chronicle.running = x.chronicle.running.erase t :=
    Chronicle.running_concat x.chronicle _
  rw [Chronicle.runningOf, (List.perm_cons_erase ht).countP_eq, List.countP_cons,
    Chronicle.runningOf, hrunning]
  simp

/-! ### A schedule that is switched on -/

/-- One tick of a task after each of the first `k` periods since it was started. -/
def beats (i id : Nat) (period : Duration) (start k : Nat) : List Tick :=
  (List.range k).map fun n => ⟨i, id, start + (n + 1) * period.nanos⟩

theorem beats_succ (i id : Nat) (period : Duration) (start k : Nat) :
    beats i id period start (k + 1) =
      beats i id period start k ++ [⟨i, id, start + (k + 1) * period.nanos⟩] := by
  simp only [beats, List.range_succ, List.map_append, List.map_cons, List.map_nil]

/-- The ticks of schedule `i` are those it had before `start`, and one of task `id` after each of
some periods since then. The task is in the last of these ticks, or waits for the next one. -/
def OnBeat (i id : Nat) (period : Duration) (start : Nat) (before : List Tick) (x : Timetable) :
    Prop :=
  ∃ k s due turn, x.schedules[i]? = some s ∧ s.task = some ⟨id, period, due, turn⟩ ∧
    x.chronicle.ticksOf i = before ++ beats i id period start k ∧
    start + k * period.nanos ≤ x.now ∧
    (due = none ∧ x.chronicle.runningOf i id = 1 ∧ x.now = start + k * period.nanos ∨
      due = some (start + (k + 1) * period.nanos) ∧ x.chronicle.runningOf i id = 0)

section beat
variable {id start : Nat} {period : Duration} {before : List Tick}

theorem onBeat_switch (hx : x.Sound) {s : Schedule} (hs : x.schedules[i]? = some s) :
    OnBeat i x.turn s.period x.now (x.chronicle.ticksOf i) (x.switch i true none) := by
  have hmove := Moves.switch x i true none
  have hidle : (x.switch i true none).chronicle.runningOf i x.turn = 0 := by
    rw [Chronicle.runningOf, hmove.running]
    refine List.countP_eq_zero.mpr fun t ht => ?_
    have hlt := (hx.begun t (Chronicle.mem_ticks_of_running ht)).1
    simp only [decide_eq_true_eq]
    omega
  refine ⟨0, s.setEnabled x.now x.turn true none, _, _, ?_, rfl, ?_, ?_, .inr ⟨?_, hidle⟩⟩
  · show (x.change i _).schedules[i]? = _
    rw [getElem?_change, if_pos rfl, hs]
    rfl
  · exact hmove.ticksOf i
  · simp [switch, change, record]
  · simp [Duration.after]

theorem OnBeat.next (h : OnBeat i id period start before x) (hx : x.Sound) (hmove : Moves x e y)
    (he : e.bind Happening.resets? ≠ some i) (hy : y.chronicle.Instant y.now) :
    OnBeat i id period start before y := by
  obtain ⟨k, s, due, turn, hs, ht, hticks, hnow, hdue⟩ := h
  obtain ⟨s', hs', hshift⟩ := hmove.shift hs
  have hlater : start + k * period.nanos ≤ y.now := Nat.le_trans hnow hmove.grows.1
  cases hshift with
  | still _ _ htask hticks' hrunning =>
    refine ⟨k, s', due, turn, hs', htask.trans ht, hticks'.trans hticks, hlater, ?_⟩
    rcases hdue with ⟨hd, hr, heq⟩ | ⟨hd, hr⟩
    · have hpos : 0 < x.chronicle.runningOf i id := by omega
      obtain ⟨t, hmem, -⟩ := List.countP_pos_iff.mp hpos
      exact .inl ⟨hd, (hrunning id).trans hr, (hmove.now_eq hx hy hmem).trans heq⟩
    · exact .inr ⟨hd, (hrunning id).trans hr⟩
  | switched on fault => exact absurd rfl he
  | stopped => exact absurd rfl he
  | begun t observers ht' hdue' =>
    rw [ht] at ht'
    cases ht'
    rcases hdue with ⟨hd, -, -⟩ | ⟨hd, hr⟩
    · rw [hd] at hdue'
      cases hdue'
    · have heq : start + (k + 1) * period.nanos = x.now :=
        Option.some.inj (hd.symm.trans hdue')
      refine ⟨k + 1, s.beginTick, none, turn, hs', by rw [Schedule.beginTick, ht]; rfl, ?_,
        Nat.le_of_eq heq, .inl ⟨rfl, ?_, heq.symm⟩⟩
      · rw [ticksOf_tick, hticks, beats_succ, ← List.append_assoc, heq]
      · rw [runningOf_tick, hr]
  | finished t failure hmem hi =>
    have hsum := runningOf_finish hmem failure i id
    have hsame := (ticksOf_finish (x := x) t failure i).trans hticks
    by_cases hid : t.task = id
    · rw [if_pos ⟨hi, hid⟩] at hsum
      rcases hdue with ⟨-, hr, heq⟩ | ⟨-, hr⟩
      · refine ⟨k, _, some (period.after x.now), x.turn, hs', ?_, hsame, hlater,
          .inr ⟨?_, by omega⟩⟩
        · simp [Schedule.endTick, ht, hid]
        · rw [Duration.after, heq, Nat.succ_mul, Nat.add_assoc]
      · omega
    · rw [if_neg fun h => hid h.2, Nat.add_zero] at hsum
      rw [Schedule.endTick_of_replaced (by simpa [ht] using Ne.symm hid)] at hs'
      refine ⟨k, s, due, turn, hs', ht, hsame, hlater, ?_⟩
      rw [← hsum]
      exact hdue

/-- A schedule stays on its beat until it is switched or stopped. -/
theorem Steady.onBeat (hsteady : Steady i x y) (hx : x.Sound)
    (h : OnBeat i id period start before x) (hy : y.chronicle.Instant y.now) :
    OnBeat i id period start before y := by
  induction hsteady with
  | refl => exact h
  | tail hrun hmove ih =>
    obtain ⟨e, he, hmove⟩ := hmove
    have hsound := (Steady.run hrun).keeps (fun _ _ _ hmove hx => hx.next hmove) hx
    exact (ih (hmove.instant hsound hy)).next hsound hmove he hy

theorem OnBeat.ticks (h : OnBeat i id period start before x) (hx : x.Sound) :
    ∃ k, x.chronicle.ticksOf i = before ++ beats i id period start k ∧
      start + k * period.nanos ≤ x.now ∧ x.now ≤ start + (k + 1) * period.nanos := by
  obtain ⟨k, s, due, turn, hs, ht, hticks, hnow, hdue⟩ := h
  refine ⟨k, hticks, hnow, ?_⟩
  rcases hdue with ⟨-, -, heq⟩ | ⟨hd, -⟩
  · rw [heq, Nat.succ_mul]
    omega
  · refine hx.ahead s (List.mem_of_getElem? hs) _ ?_
    simp [Schedule.due?, ht, hd]

end beat

/-! ### A schedule without a task -/

/-- Schedule `i`, if there is one, has no task, and its ticks are these. -/
def Resting (i : Nat) (before : List Tick) (x : Timetable) : Prop :=
  (∀ s, x.schedules[i]? = some s → s.task = none) ∧ x.chronicle.ticksOf i = before

section rest
variable {before : List Tick}

theorem Moves.absent (h : Moves x e y) (hi : x.schedules[i]? = none) :
    Resting i (x.chronicle.ticksOf i) y := by
  have hticks := h.ticksOf i
  have changed : ∀ {n : Nat} (f : Schedule → Schedule), (x.change n f).schedules[i]? = none := by
    intro n f
    rw [getElem?_change, hi]
    split <;> rfl
  have apart : ∀ {z : Timetable}, z.schedules[i]? = none →
      ∀ s, z.schedules[i]? = some s → s.task = none :=
    fun hz s hs => by rw [hz] at hs; cases hs
  cases h with
  | add period =>
    refine ⟨fun s hs => ?_, hticks.trans (List.append_nil _)⟩
    have hs : (x.schedules ++ [({ period } : Schedule)])[i]? = some s := hs
    rw [List.getElem?_append_right (List.getElem?_eq_none_iff.mp hi)] at hs
    obtain rfl := List.mem_singleton.mp (List.mem_of_getElem? hs)
    rfl
  | switch | stop | store | finish => exact ⟨apart (changed _), hticks.trans (List.append_nil _)⟩
  | tick n s t observers hs =>
    have hne : n ≠ i := fun hn => by rw [hn, hi] at hs; cases hs
    refine ⟨apart (changed _), hticks.trans ?_⟩
    simp [Happening.begun?, hne]
  | shown | pass => exact ⟨apart hi, hticks.trans (List.append_nil _)⟩

theorem Moves.resting (h : Moves x e y) (hi : e.bind Happening.resets? = some i)
    (hstarts : e.bind Happening.starts? = none) : Resting i (x.chronicle.ticksOf i) y := by
  cases hs : x.schedules[i]? with
  | none => exact h.absent hs
  | some s =>
    obtain ⟨s', hs', hshift⟩ := h.shift hs
    have alone : s'.task = none → ∀ t, y.schedules[i]? = some t → t.task = none :=
      fun htask t ht => Option.some.inj (hs'.symm.trans ht) ▸ htask
    cases hshift with
    | still hne => exact absurd hi hne
    | switched on fault =>
      refine ⟨alone ?_, (h.ticksOf i).trans (List.append_nil _)⟩
      cases on <;> cases fault
      · rfl
      · rfl
      · cases hstarts
      · rfl
    | stopped => exact ⟨alone rfl, (h.ticksOf i).trans (List.append_nil _)⟩
    | begun => cases hi
    | finished => cases hi

theorem Resting.next (h : Resting i before x) (hmove : Moves x e y)
    (he : e.bind Happening.resets? ≠ some i) : Resting i before y := by
  obtain ⟨htask, hticks⟩ := h
  cases hs : x.schedules[i]? with
  | none => exact hticks ▸ hmove.absent hs
  | some s =>
    obtain ⟨s', hs', hshift⟩ := hmove.shift hs
    have hnone := htask s hs
    have alone : s'.task = none → ∀ t, y.schedules[i]? = some t → t.task = none :=
      fun htask t ht => Option.some.inj (hs'.symm.trans ht) ▸ htask
    cases hshift with
    | still _ _ htask' hticks' => exact ⟨alone (htask'.trans hnone), hticks'.trans hticks⟩
    | switched | stopped => exact absurd rfl he
    | begun t observers ht =>
      rw [hnone] at ht
      cases ht
    | finished t failure =>
      refine ⟨alone ?_, (ticksOf_finish t failure i).trans hticks⟩
      rw [Schedule.endTick, hnone]
      rfl

theorem Steady.resting (hsteady : Steady i x y) (h : Resting i before x) : Resting i before y := by
  induction hsteady with
  | refl => exact h
  | tail _ hmove ih =>
    obtain ⟨e, he, hmove⟩ := hmove
    exact ih.next hmove he

end rest

/-! ### A task that is gone -/

/-- Since the ticks `before`, schedule `i` has had tasks from number `n` on only. -/
def Past (i n : Nat) (before : List Tick) (x : Timetable) : Prop :=
  n ≤ x.turn ∧ (∀ s, x.schedules[i]? = some s → ∀ t ∈ s.task, n ≤ t.id) ∧
    ∃ new, x.chronicle.ticksOf i = before ++ new ∧ ∀ t ∈ new, n ≤ t.task

section past
variable {n : Nat} {before : List Tick}

theorem Past.next (h : Past i n before x) (hmove : Moves x e y) : Past i n before y := by
  obtain ⟨hn, htask, new, hticks, hnew⟩ := h
  have hturn : n ≤ y.turn := Nat.le_trans hn hmove.grows.2
  cases hs : x.schedules[i]? with
  | none =>
    obtain ⟨hnone, hsame⟩ := hmove.absent hs
    refine ⟨hturn, fun s' hs' t ht => ?_, new, hsame.trans hticks, hnew⟩
    rw [hnone s' hs'] at ht
    cases ht
  | some s =>
    obtain ⟨s', hs', hshift⟩ := hmove.shift hs
    have alone : (∀ t ∈ s'.task, n ≤ t.id) → ∀ u, y.schedules[i]? = some u → ∀ t ∈ u.task, n ≤ t.id :=
      fun h u hu => Option.some.inj (hs'.symm.trans hu) ▸ h
    have old := htask s hs
    cases hshift with
    | still _ _ htask' hticks' =>
      exact ⟨hturn, alone (htask' ▸ old), new, hticks'.trans hticks, hnew⟩
    | switched on fault =>
      refine ⟨hturn, alone fun t ht => ?_, new,
        ((hmove.ticksOf i).trans (List.append_nil _)).trans hticks, hnew⟩
      cases on <;> cases fault <;> cases ht
      exact hn
    | stopped =>
      refine ⟨hturn, alone fun t ht => ?_, new,
        ((hmove.ticksOf i).trans (List.append_nil _)).trans hticks, hnew⟩
      cases ht
    | begun t observers ht =>
      have hid : n ≤ t.id := old t ht
      refine ⟨hturn, alone fun u hu => ?_, new ++ [⟨i, t.id, x.now⟩], ?_, fun u hu => ?_⟩
      · rw [Schedule.beginTick, ht] at hu
        cases hu
        exact hid
      · rw [ticksOf_tick, hticks, List.append_assoc]
      · rcases List.mem_append.mp hu with hu | hu
        · exact hnew u hu
        · obtain rfl := List.mem_singleton.mp hu
          exact hid
    | finished t failure =>
      refine ⟨hturn, alone fun u hu => ?_, new, (ticksOf_finish t failure i).trans hticks, hnew⟩
      obtain ⟨v, hv, rfl⟩ := Option.map_eq_some_iff.mp hu
      split <;> exact old v hv

/-- Tasks that start once a schedule has been switched or stopped have later numbers. -/
theorem Moves.past (h : Moves x e y) (hi : e.bind Happening.resets? = some i) :
    Past i x.turn (x.chronicle.ticksOf i) y := by
  have hsame : y.chronicle.ticksOf i = x.chronicle.ticksOf i ++ [] := by
    rw [h.ticksOf i]
    cases h with
    | switch | stop => rfl
    | add | store | tick | shown | finish | pass => cases hi
  refine ⟨h.grows.2, fun s' hs' t ht => ?_, [], hsame, fun t ht => by cases ht⟩
  cases hs : x.schedules[i]? with
  | none =>
    rw [(h.absent hs).1 s' hs'] at ht
    cases ht
  | some s =>
    obtain ⟨u, hu, hshift⟩ := h.shift hs
    obtain rfl := Option.some.inj (hu.symm.trans hs')
    cases hshift with
    | still hne => exact absurd hi hne
    | switched on fault =>
      cases on <;> cases fault <;> cases ht
      exact Nat.le_refl _
    | stopped => cases ht
    | begun => cases hi
    | finished => cases hi

theorem Run.past (hrun : Run x y) (h : Past i n before x) : Past i n before y :=
  hrun.keeps (fun _ _ _ hmove h => h.next hmove) h

end past

end Timetable

end ConnectionLeasing

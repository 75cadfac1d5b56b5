import ConnectionLeasing.Proofs.Audience
import ConnectionLeasing.Proofs.Timetable
import ConnectionLeasing.Scenario.Outside

/-!
# A world has a timetable

The schedules of a world's monitors, with its clock and its chronicle, are a timetable. Whatever a
world goes through, its timetable goes through a run: schedules are switched and stopped, ticks begin
when they are due and end however their observers end, and the clock goes from one thing due to the
next. Every tick that began has ended by then, and was shown to the observers that were attached.

* `World.timetable`: the timetable of a world.
* `Complete`: what is entered meanwhile; every tick is shown around and ends.
* `World.Silent`: nothing is entered, and the timetable stays as it is.
* `World.Follows`: one world comes from another.
* `follows_operate`, `follows_onMonitor`: an operation, whatever runs inside its calls.
-/

namespace ConnectionLeasing.Scenario

/-! ### Showing a tick around -/

/-- Those of an audience that are reached: up to the first that fails. -/
def reached : List Recorder → List Recorder
  | [] => []
  | o :: rest =>
    match Recorder.outcome o with
    | .error _ => [o]
    | .ok _ => o :: reached rest

/-- The message of the first of an audience that fails. -/
def failureOf : List Recorder → Option String
  | [] => none
  | o :: rest =>
    match Recorder.outcome o with
    | .error message => some message
    | .ok _ => failureOf rest

/-- While a tick ran, it was shown to those of its audience that are reached, in order. The exception
is a tick that is given up after more steps than any scenario takes. -/
def ShownAround (audience : List Recorder) (meanwhile : Chronicle) (failure : Option String) : Prop :=
  failure = some "out of patience" ∨
    failure = failureOf audience ∧ (reached audience).Sublist meanwhile.shown

/-- Every tick that begins is shown around and ends. -/
inductive Complete : Chronicle → Prop
  | nil : Complete []
  | other (h : Happened) (hh : h.what.tick? = none) : Complete [h]
  | append {l l' : Chronicle} : Complete l → Complete l' → Complete (l ++ l')
  | tick (t : Tick) (observers : List Observer) {meanwhile : Chronicle} (later : Nat)
      {failure : Option String} (hmeanwhile : Complete meanwhile)
      (hshown : ShownAround (wanting observers) meanwhile failure) :
      Complete (⟨t.moment, .began t observers⟩ :: (meanwhile ++ [⟨later, .ended t failure⟩]))

theorem Complete.running {l : Chronicle} (h : Complete l) (before : Chronicle) :
    Chronicle.running (before ++ l) = before.running := by
  induction h generalizing before with
  | nil => rw [List.append_nil]
  | other h hh =>
    rw [Chronicle.running_concat]
    cases hw : h.what with
    | began | ended => rw [hw] at hh; cases hh
    | added | stored | switched | stopped | shown => rfl
  | append _ _ ih ih' => rw [← List.append_assoc, ih', ih]
  | @tick t observers meanwhile later failure _ _ ih =>
    have hcons : before ++ (⟨t.moment, .began t observers⟩ :: (meanwhile ++ [⟨later, .ended t failure⟩])) =
        before ++ [⟨t.moment, .began t observers⟩] ++ meanwhile ++ [⟨later, .ended t failure⟩] := by
      simp
    rw [hcons, Chronicle.running_concat, ih, Chronicle.running_concat]
    exact List.erase_cons_head ..

theorem Complete.ends {l before after : Chronicle} (hl : Complete l) {h : Happened} {t : Tick}
    {observers : List Observer} (hh : h.what = .began t observers) (heq : l = before ++ h :: after) :
    h.moment = t.moment ∧ ∃ meanwhile later failure rest,
      after = meanwhile ++ ⟨later, .ended t failure⟩ :: rest ∧
      ShownAround (wanting observers) meanwhile failure := by
  induction hl generalizing before after with
  | nil => exact absurd heq (by simp)
  | other g hg =>
    have hmem : h ∈ [g] := heq ▸ List.mem_append_right _ List.mem_cons_self
    obtain rfl := List.mem_singleton.mp hmem
    rw [hh] at hg
    cases hg
  | @append l l' _ _ ih ih' =>
    rcases List.append_eq_append_iff.mp heq with ⟨between, -, hl'⟩ | ⟨between, hl, hafter⟩
    · exact ih' hl'
    · cases between with
      | nil =>
        have hl' : l' = [] ++ h :: after := hafter.symm
        exact ih' hl'
      | cons g between =>
        obtain ⟨rfl, rfl⟩ := List.cons.inj hafter
        obtain ⟨hmoment, meanwhile, later, failure, rest, rfl, hshown⟩ := ih hl
        exact ⟨hmoment, meanwhile, later, failure, rest ++ l', List.append_assoc .., hshown⟩
  | @tick u others meanwhile later failure _ hshown ih =>
    cases before with
    | nil =>
      obtain ⟨rfl, rfl⟩ := List.cons.inj heq
      cases hh
      exact ⟨rfl, meanwhile, later, failure, [], rfl, hshown⟩
    | cons b before =>
      have heq : meanwhile ++ [⟨later, .ended u failure⟩] = before ++ h :: after :=
        (List.cons.inj heq).2
      rcases List.eq_nil_or_concat after with rfl | ⟨after, last, rfl⟩
      · obtain ⟨-, hlast⟩ := List.append_inj' heq rfl
        obtain rfl := List.singleton_inj.mp hlast
        cases hh
      · rw [List.concat_eq_append, ← List.cons_append, ← List.append_assoc] at heq
        obtain ⟨hmeanwhile, hlast⟩ := List.append_inj' heq rfl
        obtain ⟨hmoment, inner, moment, reason, rest, rfl, hshown⟩ := ih hmeanwhile
        exact ⟨hmoment, inner, moment, reason, rest ++ [last], by simp, hshown⟩

/-! ### The timetable of a world -/

/-- The schedules of the monitors, with the clock and the chronicle. -/
def World.timetable (w : World) : Timetable :=
  ⟨w.monitors.map (·.schedule), w.now, w.turn, w.chronicle.toList⟩

theorem timetable_record (w : World) (h : Happening) :
    (w.record h).timetable = w.timetable.record h := by
  simp [World.timetable, World.record, Timetable.record]

theorem timetable_mapMonitor (w : World) (id : Nat) (f : Schedule → Schedule) :
    (w.mapMonitor id fun m => { m with schedule := f m.schedule }).timetable =
      w.timetable.change id f := by
  have hschedules : (w.monitors.modify id fun m => { m with schedule := f m.schedule }).map
      (·.schedule) = (w.monitors.map (·.schedule)).modify id f := by
    refine List.ext_getElem? fun n => ?_
    simp only [List.getElem?_map, List.getElem?_modify]
    by_cases hn : id = n <;> simp [hn, Function.comp_def]
  exact congrArg (Timetable.mk · w.now w.turn w.chronicle.toList) hschedules

/-- Nothing has happened to schedules, clock and turns, and no pool is lost. -/
structure World.Silent (w w' : World) : Prop where
  timetable : w'.timetable = w.timetable
  pools : w.pools.length ≤ w'.pools.length

/-- The world `w'` comes from `w`. What ticks meanwhile has ended by then. -/
structure World.Follows (w w' : World) : Prop where
  run : w.timetable.Reachable → w.timetable.Run w'.timetable
  entered : ∃ l, w'.timetable.chronicle = w.timetable.chronicle ++ l ∧ Complete l
  pools : w.pools.length ≤ w'.pools.length

section follows
variable {w w' w'' : World}

theorem World.Silent.refl (w : World) : w.Silent w := ⟨rfl, Nat.le_refl _⟩

theorem World.Silent.trans (h : w.Silent w') (h' : w'.Silent w'') : w.Silent w'' :=
  ⟨h'.timetable.trans h.timetable, Nat.le_trans h.pools h'.pools⟩

theorem World.Silent.follows (h : w.Silent w') : w.Follows w' where
  run _ := h.timetable ▸ .refl
  entered := ⟨[], by rw [h.timetable, List.append_nil], .nil⟩
  pools := h.pools

theorem World.Follows.refl (w : World) : w.Follows w := (World.Silent.refl w).follows

theorem World.Follows.trans (h : w.Follows w') (h' : w'.Follows w'') : w.Follows w'' where
  run hw := (h.run hw).trans (h'.run ((h.run hw).reachable hw))
  entered := by
    obtain ⟨l, hl, hcomplete⟩ := h.entered
    obtain ⟨l', hl', hcomplete'⟩ := h'.entered
    exact ⟨l ++ l', by rw [hl', hl, List.append_assoc], hcomplete.append hcomplete'⟩
  pools := Nat.le_trans h.pools h'.pools

theorem World.Follows.of_move {e : Option Happening}
    (hmove : w.timetable.Reachable → w.timetable.Moves e w'.timetable)
    (hentered : w'.timetable.chronicle =
      w.timetable.chronicle ++ (e.map fun h => (⟨w.now, h⟩ : Happened)).toList)
    (htick : e.bind Happening.tick? = none) (hpools : w.pools.length ≤ w'.pools.length) :
    w.Follows w' where
  run hw := .single ⟨e, hmove hw⟩
  entered := by
    refine ⟨_, hentered, ?_⟩
    cases e with
    | none => exact .nil
    | some h => exact .other _ htick
  pools := hpools

theorem World.Follows.of_entry {h : Happening} (hmove : w.timetable.Moves (some h) w'.timetable)
    (htick : h.tick? = none) (hpools : w.pools.length ≤ w'.pools.length) : w.Follows w' :=
  .of_move (fun _ => hmove) hmove.chronicle htick hpools

theorem World.Follows.reachable (h : w.Follows w') (hw : w.timetable.Reachable) :
    w'.timetable.Reachable :=
  (h.run hw).reachable hw

/-! ### What nobody is told of -/

theorem silent_keepJournal (w : World) (j : Journal) : w.Silent (w.keepJournal j) := by
  unfold World.keepJournal
  split <;> exact ⟨rfl, Nat.le_refl _⟩

theorem silent_event (w : World) (e : Event) : w.Silent (w.event e) := ⟨rfl, Nat.le_refl _⟩

theorem silent_writeAffine (w : World) (registry : Nat) (s : Affine.State) :
    w.Silent (Site.writeAffine w registry s) := by
  have hwritten : w.Silent { w with
      registries := w.registries.set registry s.registry, slots := s.slots } := ⟨rfl, Nat.le_refl _⟩
  exact hwritten.trans (silent_keepJournal _ _)

theorem silent_writePooled (w : World) (directory : Nat) {s : Pooled.State}
    (hs : w.pools.length ≤ s.pools.length) : w.Silent (Site.writePooled w directory s) := by
  have hwritten : w.Silent { w with
      directories := w.directories.set directory s.directory, pools := s.pools } := ⟨rfl, hs⟩
  exact hwritten.trans (silent_keepJournal _ _)

/-- A machine that works at a site touches the monitors only through its calls, and keeps every
pool. -/
structure Quiet {S F R : Type} (machine : Machine S F R) (site : Site S) : Prop where
  resume : ∀ (w : World) (f : F) (a : (machine.call f).Answer),
    w.Silent (site.write w (machine.resume (site.read w) w.now f a).1)

theorem quiet_affine {site : Site Affine.State} (hsite : ∀ (w : World) s, w.Silent (site.write w s)) :
    Quiet affine site :=
  ⟨fun w _ _ => hsite w _⟩

theorem quiet_pooling {site : Site Pooled.State} (hread : ∀ w, (site.read w).pools = w.pools)
    (hsite : ∀ (w : World) (s : Pooled.State), w.pools.length ≤ s.pools.length →
      w.Silent (site.write w s)) :
    Quiet pooling site := by
  refine ⟨fun w f a => hsite w _ ?_⟩
  rw [← hread w]
  exact (Pooled.grown_resume _ _ _ _).le

theorem silent_basic (w : World) (id monitor : Nat) (v : World) (s : Affine.State) :
    v.Silent ((Site.basic w id monitor).write v s) := by
  have hwritten := silent_writeAffine v (v.basic id).registry s
  exact ⟨hwritten.timetable, hwritten.pools⟩

theorem silent_pools (w : World) {s : Pooled.State} (hs : w.pools.length ≤ s.pools.length) :
    w.Silent (Site.pools.write w s) := by
  have hwritten : w.Silent { w with pools := s.pools } := ⟨rfl, hs⟩
  exact hwritten.trans (silent_keepJournal _ _)

end follows

/-! ### Operations and their calls -/

theorem follows_shown (w : World) (o : Recorder) : w.Follows (w.record (.shown o)) := by
  refine .of_entry (h := .shown o) ?_ rfl (Nat.le_refl _)
  rw [timetable_record]
  exact .shown _ o

section run
variable {run : Run} (hrun : ∀ (a : Action) (w : World), w.Follows (run a w).1)
include hrun

theorem follows_runAll (actions : List Action) (w : World) : w.Follows (runAll run actions w) := by
  induction actions generalizing w with
  | nil => exact .refl w
  | cons a actions ih =>
    have hevent := silent_event (run a w).1 (.did a.name (run a w).2)
    exact ((hrun a w).trans hevent.follows).trans (ih _)

theorem follows_runHook (key : String) (w : World) : w.Follows (runHook run key w) := by
  unfold runHook
  split
  · exact .refl w
  · rename_i actions hooks _
    have hsilent : w.Silent ({ w with hooks }.event (.hook key)) := ⟨rfl, Nat.le_refl _⟩
    exact hsilent.follows.trans (follows_runAll hrun actions _)

theorem follows_validity (handle : Nat) (w : World) : w.Follows (validity run handle w).1 :=
  follows_runHook hrun _ w

theorem follows_connect (channel : Channel) (i : Identity) (timeout : Duration) (w : World) :
    w.Follows (connect run channel i timeout w).1 := by
  have hbefore : w.Silent ({ w with backend := (w.backend.construct channel).1 }.event
      (.connect (w.backend.construct channel).2.number channel i timeout)) :=
    ⟨rfl, Nat.le_refl _⟩
  have hafter : ∀ (v : World) (backend : Backend), v.Silent { v with backend } :=
    fun _ _ => ⟨rfl, Nat.le_refl _⟩
  exact (hbefore.follows.trans (follows_runHook hrun "connect" _)).trans (hafter _ _).follows

theorem follows_disconnect (h : Handle) (w : World) : w.Follows (disconnect run h w).1 := by
  have hbefore : w.Silent { w.event (.disconnect h.number) with
      backend := w.backend.beginDisconnect h.number } := ⟨rfl, Nat.le_refl _⟩
  exact hbefore.follows.trans (follows_runHook hrun _ _)

theorem follows_answer (target : Target) (c : Call) (w : World) :
    w.Follows (answer run target c w).1 := by
  cases c with
  | visit o a => exact (silent_event w _).follows.trans (follows_runHook hrun _ _)
  | tick o =>
    exact ((silent_event w _).follows.trans (follows_shown _ o)).trans (follows_runHook hrun _ _)
  | check h => exact follows_validity hrun h.number w
  | connect channel i timeout => exact follows_connect hrun channel i timeout w
  | disconnect h => exact follows_disconnect hrun h w

section machine
variable {S F R : Type} {machine : Machine S F R} {site : Site S}

theorem follows_drive (hquiet : Quiet machine site) (steps : Nat) (p : Progress F R) (w : World) :
    w.Follows (drive run machine site steps p w).1 := by
  induction steps generalizing p w with
  | zero => cases p <;> exact .refl w
  | succ steps ih =>
    cases p with
    | done r => exact .refl w
    | paused f =>
      have hanswer := follows_answer hrun site.target (machine.call f) w
      rw [drive]
      split
      · rename_i v message h
        rw [h] at hanswer
        exact hanswer
      · rename_i v a h
        rw [h] at hanswer
        exact (hanswer.trans (hquiet.resume v f a).follows).trans (ih _ _)

theorem follows_operate (hquiet : Quiet machine site) {start : S → Nat → S × Progress F R}
    {w : World} (hstart : w.Silent (site.write w (start (site.read w) w.now).1)) :
    w.Follows (operate run machine site start w).1 :=
  hstart.follows.trans (follows_drive hrun hquiet _ _ _)

end machine

theorem follows_affine {site : Site Affine.State}
    (hsite : ∀ (w : World) s, w.Silent (site.write w s)) (c : Affine.Command) (w : World) :
    w.Follows (operate run affine site (fun s now => Affine.start s now c) w).1 :=
  follows_operate hrun (quiet_affine hsite) (hsite w _)

theorem follows_pooling {site : Site Pooled.State} (hread : ∀ w, (site.read w).pools = w.pools)
    (hsite : ∀ (w : World) (s : Pooled.State), w.pools.length ≤ s.pools.length →
      w.Silent (site.write w s)) (c : Pooled.Command) (w : World) :
    w.Follows (operate run pooling site (fun s now => Pooled.start s now c) w).1 := by
  refine follows_operate hrun (quiet_pooling hread hsite) (hsite w _ ?_)
  rw [← hread w]
  exact (Pooled.grown_start _ _ _).le

theorem follows_onBasic (id : Nat) (c : Affine.Command) (w : World) :
    w.Follows (onBasic run id c w).1 :=
  follows_affine hrun (silent_basic w id _) c w

theorem follows_onPooled (id : Nat) (c : Pooled.Command) (w : World) :
    w.Follows (onPooled run id c w).1 :=
  follows_pooling hrun (fun _ => rfl) (fun v _ hs => silent_writePooled v _ hs) c w

theorem follows_onPool (id : Nat) (c : Pool.Command Handle) (w : World) :
    w.Follows (onPool run id c w).1 :=
  follows_pooling hrun (fun _ => rfl) (fun v _ hs => silent_pools v hs) _ w

end run

end ConnectionLeasing.Scenario

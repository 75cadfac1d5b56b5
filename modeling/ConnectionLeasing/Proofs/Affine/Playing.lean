import ConnectionLeasing.Exposition
import ConnectionLeasing.Proofs.Affine.Renaming
import ConnectionLeasing.Proofs.Affine.Reporting
import ConnectionLeasing.Proofs.Inputs

/-!
# Playing a run of a context-affine manager

`System.run?` takes a system through a list of inputs. Beyond the moves of a run it lets the
identities and the slots of an entry be enumerated in another order at any moment. What it is given
under other passwords takes it to the same system under other passwords, and no text shows which
passwords these were.

* `Reachable.played`: every run is played from its inputs.
* `System.given?_rename`, `System.run?_rename`: the same under other passwords.
* `System.texts_rename`: all texts of a system.
-/

namespace ConnectionLeasing.Affine

/-! ### What is renamed -/

section rename
variable (π : Renaming)

def Event.rename : Event → Event
  | called k call => called (k.rename π) (call.rename π)
  | answered k call a => answered (k.rename π) (call.rename π) (call.renameAnswer π a)
  | returned k r => returned (k.rename π) (r.rename π)

def Ongoing.rename (o : Ongoing) : Ongoing := ⟨o.command.rename π, o.frame.rename π⟩

def System.rename (m : System) : System where
  state := m.state.rename π
  now := m.now
  ongoing := m.ongoing.map (·.rename π)
  events := m.events.map (·.rename π)

end rename

variable {π ρ : Renaming}

/-- The identities a command names. -/
def Command.identities : Command → List Identity
  | borrow r => [r.identity]
  | release i _ | close i _ => [i]
  | tell a => [a.identity]
  | tick | sweep | closeAll => []

theorem Command.rename_congr (k : Command)
    (h : ∀ i ∈ k.identities, i.rename ρ = i.rename π) : k.rename ρ = k.rename π := by
  cases k with
  | borrow r => exact congrArg (fun i => borrow { r with identity := i }) (h _ (.head _))
  | release i c => exact congrArg (release · c) (h _ (.head _))
  | close i c => exact congrArg (close · c) (h _ (.head _))
  | tell a => exact congrArg (fun i => tell { a with identity := i }) (h _ (.head _))
  | tick | sweep | closeAll => rfl

/-! ### Playing -/

namespace System

/-- The system after it was given an input, if it can take it. -/
def given? (m : System) : Input Command → Option System
  | .start k => some (m.started k)
  | .reply n r => m.ongoing[n]?.bind fun o =>
    (r.answer? o.frame.call).map fun a => m.resumed o a (m.ongoing.eraseIdx n)
  | .fail n => m.ongoing[n]?.bind fun o =>
    if o.frame.call.tells then some { m with ongoing := m.ongoing.eraseIdx n } else none
  | .attach o => some { m with state := { m.state with observers := m.state.observers ++ [o] } }
  | .pass t => if m.now ≤ t then some { m with now := t } else none
  | .enumerate order => (arranged? order m.state.registry.known).map fun known =>
    { m with state := { m.state with registry := { m.state.registry with known } } }
  | .enumerateSlots e order => (arranged? order (m.state.slotsOf e)).map fun slots =>
    { m with state := { m.state with
        registry := m.state.registry.mapEntry e fun x => { x with slots } } }

/-- The system after it was given some inputs, one after the other. -/
def run? (m : System) (inputs : List (Input Command)) : Option System := inputs.foldlM given? m

end System

/-- **Every move is an input.** -/
theorem Moves.given {may : Overlap} {m m' : System} {k : Option Command} (h : Moves may m k m') :
    ∃ x, m.given? x = some m' := by
  cases h with
  | start k => exact ⟨.start k, rfl⟩
  | resume before o later a hm =>
    obtain ⟨r, hr⟩ := o.frame.call.exists_reply a
    refine ⟨.reply before.length r, ?_⟩
    rw [System.given?, hm, getElem?_length_append, eraseIdx_length_append, Option.bind_some, hr]
    rfl
  | fail before o later hm _ ho =>
    refine ⟨.fail before.length, ?_⟩
    rw [System.given?, hm, getElem?_length_append, eraseIdx_length_append, Option.bind_some,
      if_pos ho]
  | attach o => exact ⟨.attach o, rfl⟩
  | pass t ht => exact ⟨.pass t, if_pos ht⟩

/-- **Every run is played from its inputs.** -/
theorem Reachable.played {may : Overlap} {m : System} (hm : Reachable may m) :
    ∃ settings factory now inputs, (System.initial settings factory now).run? inputs = some m := by
  induction hm with
  | initial settings factory now => exact ⟨settings, factory, now, [], rfl⟩
  | next _ hmove ih =>
    obtain ⟨settings, factory, now, inputs, hrun⟩ := ih
    obtain ⟨x, hx⟩ := hmove.given
    exact ⟨settings, factory, now, inputs ++ [x], foldlM_concat hrun hx⟩

/-! ### Other passwords -/

theorem Frame.call_rename (f : Frame) : (f.rename π).call = f.call.rename π := by
  cases f <;> rfl

theorem Frame.answered_rename (k : Command) (f : Frame) (a : f.call.Answer) :
    Event.answered (k.rename π) (f.rename π).call (f.renameAnswer π a) =
      (Event.answered k f.call a).rename π := by
  cases f <;> rfl

theorem Frame.answer?_rename (f : Frame) (r : Reply) :
    (r.rename π).answer? (f.rename π).call = (r.answer? f.call).map (f.renameAnswer π) := by
  cases f <;> cases r <;> rfl

theorem left_rename (k : Command) (next : Progress Frame Result) :
    left (k.rename π) (next.map (·.rename π) (·.rename π)) = (left k next).map (·.rename π) := by
  cases next <;> rfl

theorem shown_rename (k : Command) (next : Progress Frame Result) :
    shown (k.rename π) (next.map (·.rename π) (·.rename π)) = (shown k next).rename π := by
  cases next with
  | paused f => exact congrArg (Event.called _) f.call_rename
  | done r => rfl

namespace System

theorem initial_rename (settings : ManagerSettings) (factory : Factory) (now : Nat) :
    (initial settings factory now).rename π = initial settings factory now :=
  congrArg (fun journal => { initial settings factory now with
    state := { State.initial settings factory with journal } }) Array.map_empty

theorem moved_rename (π : Renaming) (m : System) (k : Command) (seen : List Event)
    (rest : List Ongoing) (step : Step) :
    (m.rename π).moved (k.rename π) (seen.map (·.rename π)) (rest.map (·.rename π))
      (step.rename π) = (m.moved k seen rest step).rename π := by
  rw [moved, moved, rename, Step.rename, left_rename, shown_rename, ← List.map_append,
    ← List.map_append, ← List.map_singleton, ← List.map_append]
  rfl

section injective
variable (hπ : Function.Injective (Identity.rename π))
include hπ

theorem started_rename (m : System) (k : Command) :
    (m.rename π).started (k.rename π) = (m.started k).rename π := by
  have hstart : start (m.rename π).state (m.rename π).now (k.rename π) = _ :=
    start_rename m.now hπ k
  rw [started, started, hstart]
  exact m.moved_rename π k [] m.ongoing _

theorem resumed_rename (m : System) (o : Ongoing) (a : o.frame.call.Answer) (rest : List Ongoing) :
    (m.rename π).resumed (o.rename π) (o.frame.renameAnswer π a) (rest.map (·.rename π)) =
      (m.resumed o a rest).rename π := by
  have hmoved := m.moved_rename π o.command [.answered o.command o.frame.call a] rest
    (resume m.state m.now o.frame a)
  rw [← resume_rename m.now hπ, List.map_singleton, ← Frame.answered_rename] at hmoved
  exact hmoved

/-- **An input under other passwords** leads to the same system under other passwords. -/
theorem given?_rename (m : System) (x : Input Command) :
    (m.rename π).given? (x.rename π (·.rename π)) = (m.given? x).map (·.rename π) := by
  have hongoing : ∀ n, (m.rename π).ongoing[n]? = m.ongoing[n]?.map (Ongoing.rename π) :=
    fun n => List.getElem?_map ..
  have hrest : ∀ n, (m.rename π).ongoing.eraseIdx n =
      (m.ongoing.eraseIdx n).map (Ongoing.rename π) := fun n => List.eraseIdx_map ..
  cases x with
  | start k => exact congrArg some (m.started_rename hπ k)
  | reply n r =>
    rw [Input.rename, given?, given?, hongoing, hrest]
    cases m.ongoing[n]? with
    | none => rfl
    | some o =>
      have hanswer : (r.rename π).answer? (o.rename π).frame.call = _ := o.frame.answer?_rename r
      rw [Option.map_some, Option.bind_some, Option.bind_some, hanswer]
      cases r.answer? o.frame.call with
      | none => rfl
      | some a => exact congrArg some (m.resumed_rename hπ o a _)
  | fail n =>
    rw [Input.rename, given?, given?, hongoing, hrest]
    cases m.ongoing[n]? with
    | none => rfl
    | some o =>
      have htells : (o.rename π).frame.call.tells = o.frame.call.tells := by
        rw [Ongoing.rename, Frame.call_rename]
        cases o.frame.call <;> rfl
      rw [Option.map_some, Option.bind_some, Option.bind_some, htells,
        apply_ite (Option.map (System.rename π))]
      rfl
  | attach o => rfl
  | pass t =>
    rw [Input.rename, given?, given?, apply_ite (Option.map (System.rename π))]
    rfl
  | enumerate order =>
    have hknown : arranged? order (m.rename π).state.registry.known = _ :=
      arranged?_map (Prod.map (Identity.rename π) id) order m.state.registry.known
    rw [Input.rename, given?, given?, hknown, Option.map_map, Option.map_map]
    rfl
  | enumerateSlots e order =>
    have hslots : (m.rename π).state.slotsOf e = m.state.slotsOf e := rfl
    rw [Input.rename, given?, given?, hslots, Option.map_map]
    rfl

/-- **A run under other passwords.** -/
theorem run?_rename (m : System) (inputs : List (Input Command)) :
    (m.rename π).run? (inputs.map (·.rename π (·.rename π))) =
      (m.run? inputs).map (·.rename π) :=
  foldlM_hom (given?_rename hπ) inputs m

end injective

end System

/-! ### Texts -/

/-- The errors that are answered or returned. -/
def Event.errors : Event → List LeaseError
  | answered _ (.connect ..) c => c.failure.toList
  | answered _ (.disconnect _) failure => failure.toList
  | returned _ (.refused e) => [e]
  | _ => []

theorem Event.errors_rename (x : Event) : (x.rename π).errors = x.errors.map (·.rename π) := by
  cases x with
  | called => rfl
  | answered k call a =>
    cases call with
    | visit | tick | check => rfl
    | connect => exact Option.toList_map ..
    | disconnect => exact Option.toList_map ..
  | returned k r => cases r <;> rfl

/-- The texts of a manager, and of what has been seen of its run. -/
structure Texts where
  errors : List (String × String)
  identities : List (String × String)
  statistics : List String
  /-- The report with its warnings, or what stands in its way. -/
  health : Except Overflow HealthStatus
  metrics : List (String × String)
  metricsText : String
  /-- For each name of the manager and each choice of tags. -/
  exposition : String → List (String × String) → String
  journal : List JournalLine

def System.texts (m : System) : Texts where
  errors := (m.events.flatMap Event.errors).map (·.texts)
  identities := m.state.registry.known.map (·.1.texts)
  statistics := m.state.statistics.map (·.json)
  health := m.state.healthReport
  metrics := m.state.metrics.exported
  metricsText := m.state.metrics.json
  exposition := Exposition.text m.state.metrics
  journal := Journal.lines m.state.journal

/-- **No text of a manager shows a password.** -/
theorem System.texts_rename (m : System) : (m.rename π).texts = m.texts := by
  have herrors : ((m.rename π).events.flatMap Event.errors).map (·.texts) =
      (m.events.flatMap Event.errors).map (·.texts) :=
    LeaseError.map_texts_flatMap Event.errors_rename m.events
  have hidentities : (m.rename π).state.registry.known.map (·.1.texts) =
      m.state.registry.known.map (·.1.texts) := List.map_map
  have hstatistics : (m.rename π).state.statistics = m.state.statistics := State.statistics_rename
  have hhealth : (m.rename π).state.healthReport = m.state.healthReport :=
    congrArg (HealthStatus.report · m.state.settings.maxConnections) hstatistics
  have hmetrics : (m.rename π).state.metrics = m.state.metrics := State.metrics_rename
  have hjournal : Journal.lines (m.rename π).state.journal = Journal.lines m.state.journal :=
    Journal.lines_rename _
  rw [texts, herrors, hidentities, hstatistics, hhealth, hmetrics, hjournal]
  rfl

end ConnectionLeasing.Affine

import ConnectionLeasing.Proofs.Inputs
import ConnectionLeasing.Proofs.Pooled.Renaming
import ConnectionLeasing.Proofs.Pooled.Run
import ConnectionLeasing.Proofs.Waiting

/-!
# Playing a run of a pooled manager

As for a context-affine manager, `System.run?` takes a system through a list of inputs, beyond the
moves of a run also through other orders of the pools. A borrower who waits takes part in such a run
by its tries and its sleeps (`Rehearsal`), each filled by further inputs.

* `Reachable.played`: every run is played from its inputs.
* `System.given?_rename`, `System.run?_rename`: the same under other passwords.
* `Rehearsal.block_rename`, `Rehearsal.poll_rename`: a borrower who waits, under other passwords.
* `System.texts_rename`: all texts of a system.
-/

namespace ConnectionLeasing.Pooled

/-! ### What is renamed -/

/-- A command, with the guards from which it takes no object. -/
structure Asked where
  command : Command
  guards : List (Nat × Item Handle)

section rename
variable (π : Renaming)

def Event.rename : Event → Event
  | called k call => called (k.rename π) (call.rename π)
  | answered k call a => answered (k.rename π) (call.rename π) (call.renameAnswer π a)
  | returned k r => returned (k.rename π) (r.rename π)

def Ongoing.rename (o : Ongoing) : Ongoing := ⟨o.command.rename π, o.frame.rename π⟩

def System.rename (m : System) : System where
  state := m.state.rename π
  now := m.now
  ongoing := m.ongoing.map (·.rename π)
  guards := m.guards
  events := m.events.map (·.rename π)

def Asked.rename (k : Asked) : Asked := { k with command := k.command.rename π }

end rename

variable {π ρ : Renaming}

/-- The identities a command names. -/
def Command.identities : Command → List Identity
  | select key _ => [key.identity]
  | release i _ | close i _ | closeIdentity i => [i]
  | tell a => [a.identity]
  | tick | closeAll | evictIdle | shutDown | inPool .. => []

theorem Command.rename_congr (k : Command)
    (h : ∀ i ∈ k.identities, i.rename ρ = i.rename π) : k.rename ρ = k.rename π := by
  cases k with
  | select key c => exact congrArg (fun i => select { key with identity := i } c) (h _ (.head _))
  | release i c => exact congrArg (release · c) (h _ (.head _))
  | close i c => exact congrArg (close · c) (h _ (.head _))
  | closeIdentity i => exact congrArg closeIdentity (h _ (.head _))
  | tell a => exact congrArg (fun i => tell { a with identity := i }) (h _ (.head _))
  | tick | closeAll | evictIdle | shutDown | inPool => rfl

def Asked.identities (k : Asked) : List Identity := k.command.identities

theorem Asked.rename_congr (k : Asked)
    (h : ∀ i ∈ k.identities, i.rename ρ = i.rename π) : k.rename ρ = k.rename π :=
  congrArg (Asked.mk · k.guards) (k.command.rename_congr h)

/-! ### Playing -/

namespace System

/-- The system after it was given an input, if it can take it. -/
def given? (m : System) : Input Asked → Option System
  | .start k =>
    if m.guards.isPerm (k.command.given ++ k.guards) then some (m.started k.command k.guards)
    else none
  | .reply n r => m.ongoing[n]?.bind fun o =>
    (r.answer? o.frame.call).map fun a => m.resumed o a (m.ongoing.eraseIdx n)
  | .fail n => m.ongoing[n]?.bind fun o =>
    if o.frame.call.tells then some { m with ongoing := m.ongoing.eraseIdx n } else none
  | .attach o => some { m with state := { m.state with observers := m.state.observers ++ [o] } }
  | .pass t => if m.now ≤ t then some { m with now := t } else none
  | .enumerate order => (arranged? order m.state.directory).map fun directory =>
    { m with state := { m.state with directory } }
  | .enumerateSlots .. => none

/-- The system after it was given some inputs, one after the other. -/
def run? (m : System) (inputs : List (Input Asked)) : Option System := inputs.foldlM given? m

end System

/-- **Every move is an input.** -/
theorem Moves.given {m m' : System} (h : Moves m m') : ∃ x, m.given? x = some m' := by
  cases h with
  | start k guards hk => exact ⟨.start ⟨k, guards⟩, if_pos (List.isPerm_iff.mpr hk)⟩
  | resume before o later a hm =>
    obtain ⟨r, hr⟩ := o.frame.call.exists_reply a
    refine ⟨.reply before.length r, ?_⟩
    rw [System.given?, hm, getElem?_length_append, eraseIdx_length_append, Option.bind_some, hr]
    rfl
  | fail before o later hm ho =>
    refine ⟨.fail before.length, ?_⟩
    rw [System.given?, hm, getElem?_length_append, eraseIdx_length_append, Option.bind_some,
      if_pos ho]
  | attach o => exact ⟨.attach o, rfl⟩
  | pass t ht => exact ⟨.pass t, if_pos ht⟩

/-- **Every run is played from its inputs.** -/
theorem Reachable.played {m : System} (hm : Reachable m) :
    ∃ settings factory now inputs, (System.initial settings factory now).run? inputs = some m := by
  induction hm with
  | initial settings factory now => exact ⟨settings, factory, now, [], rfl⟩
  | next _ hmove ih =>
    obtain ⟨settings, factory, now, inputs, hrun⟩ := ih
    obtain ⟨x, hx⟩ := hmove.given
    exact ⟨settings, factory, now, inputs ++ [x], foldlM_concat hrun hx⟩

/-! ### Other passwords -/

theorem Frame.call_rename (f : Frame) : (f.rename π).call = f.call.rename π := by
  cases f with
  | telling | ticking => rfl
  | inPool id source f after => cases f <;> rfl

theorem Frame.answered_rename (k : Command) (f : Frame) (a : f.call.Answer) :
    Event.answered (k.rename π) (f.rename π).call (f.renameAnswer π a) =
      (Event.answered k f.call a).rename π := by
  cases f with
  | telling | ticking => rfl
  | inPool id source f after => cases f <;> rfl

theorem Frame.answer?_rename (f : Frame) (r : Reply) :
    (r.rename π).answer? (f.rename π).call = (r.answer? f.call).map (f.renameAnswer π) := by
  cases f with
  | telling | ticking => cases r <;> rfl
  | inPool id source f after => cases f <;> cases r <;> rfl

theorem left_rename (k : Command) (next : Progress Frame Result) :
    left (k.rename π) (next.map (·.rename π) (·.rename π)) = (left k next).map (·.rename π) := by
  cases next <;> rfl

theorem shown_rename (k : Command) (next : Progress Frame Result) :
    shown (k.rename π) (next.map (·.rename π) (·.rename π)) = (shown k next).rename π := by
  cases next with
  | paused f => exact congrArg (Event.called _) f.call_rename
  | done r => rfl

theorem lent_rename (k : Command) (next : Progress Frame Result) :
    lent (k.rename π) (next.map (·.rename π) (·.rename π)) = lent k next := by
  cases next with
  | paused f => cases k <;> rfl
  | done r =>
    cases r with
    | pool r => cases k <;> cases r <;> rfl
    | selected | refused | counted | told => cases k <;> rfl

theorem Command.given_rename (k : Command) : (k.rename π).given = k.given := by
  cases k <;> rfl

namespace System

theorem initial_rename (settings : ManagerSettings) (factory : Factory) (now : Nat) :
    (initial settings factory now).rename π = initial settings factory now :=
  congrArg (fun journal => { initial settings factory now with
    state := { State.initial settings factory with journal } }) Array.map_empty

theorem moved_rename (π : Renaming) (m : System) (k : Command) (seen : List Event)
    (rest : List Ongoing) (guards : List (Nat × Item Handle)) (step : Step) :
    (m.rename π).moved (k.rename π) (seen.map (·.rename π)) (rest.map (·.rename π)) guards
      (step.rename π) = (m.moved k seen rest guards step).rename π := by
  rw [moved, moved, rename, Step.rename, left_rename, shown_rename, lent_rename,
    ← List.map_append, ← List.map_append, ← List.map_singleton, ← List.map_append]
  rfl

section injective
variable (hπ : Function.Injective (Identity.rename π))
include hπ

theorem started_rename (m : System) (k : Command) (guards : List (Nat × Item Handle)) :
    (m.rename π).started (k.rename π) guards = (m.started k guards).rename π := by
  have hstart : start (m.rename π).state (m.rename π).now (k.rename π) = _ :=
    start_rename m.now hπ k
  rw [started, started, hstart]
  exact m.moved_rename π k [] m.ongoing guards _

theorem resumed_rename (m : System) (o : Ongoing) (a : o.frame.call.Answer) (rest : List Ongoing) :
    (m.rename π).resumed (o.rename π) (o.frame.renameAnswer π a) (rest.map (·.rename π)) =
      (m.resumed o a rest).rename π := by
  have hmoved := m.moved_rename π o.command [.answered o.command o.frame.call a] rest
    m.guards (resume m.state m.now o.frame a)
  rw [← resume_rename m.now hπ, List.map_singleton, ← Frame.answered_rename] at hmoved
  exact hmoved

/-- **An input under other passwords** leads to the same system under other passwords. -/
theorem given?_rename (m : System) (x : Input Asked) :
    (m.rename π).given? (x.rename π (·.rename π)) = (m.given? x).map (·.rename π) := by
  have hongoing : ∀ n, (m.rename π).ongoing[n]? = m.ongoing[n]?.map (Ongoing.rename π) :=
    fun n => List.getElem?_map ..
  have hrest : ∀ n, (m.rename π).ongoing.eraseIdx n =
      (m.ongoing.eraseIdx n).map (Ongoing.rename π) := fun n => List.eraseIdx_map ..
  cases x with
  | start k =>
    have hgiven : (k.rename π).command.given = k.command.given := k.command.given_rename
    rw [Input.rename, given?, given?, hgiven, apply_ite (Option.map (System.rename π)),
      Option.map_some, ← m.started_rename hπ]
    rfl
  | reply n r =>
    rw [Input.rename, given?, given?, hongoing, hrest]
    cases m.ongoing[n]? with
    | none => rfl
    | some o =>
      have hanswer : (r.rename π).answer? (o.rename π).frame.call = _ := o.frame.answer?_rename r
      rw [Option.map_some, Option.bind_some, Option.bind_some, hanswer]
      cases r.answer? o.frame.call with
      | none => rfl
      | some a => exact congrArg some (m.resumed_rename hπ o a _)
  | fail n =>
    rw [Input.rename, given?, given?, hongoing, hrest]
    cases m.ongoing[n]? with
    | none => rfl
    | some o =>
      have htells : (o.rename π).frame.call.tells = o.frame.call.tells := by
        rw [Ongoing.rename, Frame.call_rename]
        cases o.frame.call <;> rfl
      rw [Option.map_some, Option.bind_some, Option.bind_some, htells,
        apply_ite (Option.map (System.rename π))]
      rfl
  | attach o => rfl
  | pass t =>
    rw [Input.rename, given?, given?, apply_ite (Option.map (System.rename π))]
    rfl
  | enumerate order =>
    have hdirectory : arranged? order (m.rename π).state.directory = _ :=
      arranged?_map (Prod.map (PoolKey.rename π) id) order m.state.directory
    rw [Input.rename, given?, given?, hdirectory, Option.map_map, Option.map_map]
    rfl
  | enumerateSlots => rfl

/-- **A run under other passwords.** -/
theorem run?_rename (m : System) (inputs : List (Input Asked)) :
    (m.rename π).run? (inputs.map (·.rename π (·.rename π))) =
      (m.run? inputs).map (·.rename π) :=
  foldlM_hom (given?_rename hπ) inputs m

end injective

end System

/-! ### A borrower who waits -/

/-- What a borrower makes of what it sees at the end of a try. -/
def Event.found : Event → Except LeaseError (Option (Item Handle))
  | returned _ (.pool (.lent x)) => .ok (some x)
  | returned _ (.pool (.failed e)) => .error e
  | _ => .ok none

theorem Event.found_rename (x : Event) :
    (x.rename π).found = x.found.mapError (·.rename π) := by
  cases x with
  | called | answered => rfl
  | returned k r =>
    cases r with
    | pool r => cases r <;> rfl
    | selected | refused | counted | told => rfl

/-- What a try has come to whose end is the last thing seen. -/
def System.found (m : System) : Except LeaseError (Option (Item Handle)) :=
  m.events.getLast?.elim (.ok none) Event.found

theorem System.found_rename (m : System) :
    (m.rename π).found = m.found.mapError (·.rename π) := by
  rw [found, found, rename, List.getLast?_map]
  cases m.events.getLast? with
  | none => rfl
  | some x => exact x.found_rename

/-- A run with all it will be given: one act for each try and for each sleep of a borrower. -/
structure Rehearsal where
  system : System
  acts : List (List (Input Asked))

namespace Rehearsal

/-- The run after the next act, which is left out if it cannot be played. -/
def play (w : Rehearsal) : Rehearsal :=
  match w.acts with
  | [] => w
  | act :: acts => ⟨(w.system.run? act).getD w.system, acts⟩

/-- A borrower of pool number `id`, each of whose tries and sleeps takes one act. -/
def surroundings (id : Nat) : Waiting.Surroundings Rehearsal (Item Handle) where
  now w := w.system.now
  signals w := (w.system.state.pools[id]?.map (·.pool.signals)).getD 0
  attempt w := (w.play, w.play.system.found)
  sleep _ _ w := w.play

def rename (π : Renaming) (w : Rehearsal) : Rehearsal where
  system := w.system.rename π
  acts := w.acts.map (·.map (·.rename π (·.rename π)))

section injective
variable (hπ : Function.Injective (Identity.rename π))
include hπ

theorem play_rename (w : Rehearsal) : (w.rename π).play = w.play.rename π := by
  obtain ⟨m, acts⟩ := w
  cases acts with
  | nil => rfl
  | cons act acts =>
    show (⟨((m.rename π).run? (act.map (·.rename π (·.rename π)))).getD (m.rename π), _⟩ :
      Rehearsal) = _
    rw [m.run?_rename hπ, Option.getD_map]
    rfl

theorem respects (id : Nat) :
    (surroundings id).Respects (rename π) (·.rename π) where
  now _ := rfl
  signals w := by
    show ((w.system.state.rename π).pools[id]?.map (·.pool.signals)).getD 0 = _
    rw [State.getElem?_pools_rename, Option.map_map]
    rfl
  attempt w := by
    show ((w.rename π).play, (w.rename π).play.system.found) = _
    rw [play_rename hπ]
    exact congrArg (Prod.mk _) w.play.system.found_rename
  sleep _ _ w := play_rename hπ w

/-- **A borrower who blocks gets the same under other passwords.** -/
theorem block_rename (id : Nat) (timeout : Duration) (tries : Nat) (w : Rehearsal) :
    Waiting.block (surroundings id) timeout tries (w.rename π) =
      Prod.map (·.rename π) (Option.map (Except.mapError (·.rename π)))
        (Waiting.block (surroundings id) timeout tries w) :=
  (respects hπ id).blockUntil rfl tries w

/-- **A borrower who polls gets the same under other passwords.** -/
theorem poll_rename (id : Nat) (timeout : Duration) (tries : Nat) (w : Rehearsal) :
    Waiting.poll (surroundings id) timeout tries (w.rename π) =
      Prod.map (·.rename π) (Option.map (Except.mapError (·.rename π)))
        (Waiting.poll (surroundings id) timeout tries w) :=
  (respects hπ id).pollUntil rfl tries w

end injective

end Rehearsal

/-! ### Texts -/

/-- The errors that are answered or returned. -/
def Event.errors : Event → List LeaseError
  | answered _ (.connect ..) c => c.failure.toList
  | answered _ (.disconnect _) failure => failure.toList
  | returned _ (.refused e) => [e]
  | returned _ (.pool (.failed e)) => [e]
  | _ => []

theorem Event.errors_rename (x : Event) : (x.rename π).errors = x.errors.map (·.rename π) := by
  cases x with
  | called => rfl
  | answered k call a =>
    cases call with
    | visit | tick | check => rfl
    | connect => exact Option.toList_map ..
    | disconnect => exact Option.toList_map ..
  | returned k r =>
    cases r with
    | pool r => cases r <;> rfl
    | selected | refused | counted | told => rfl

/-- The texts of a manager, and of what has been seen of its run. -/
structure Texts where
  errors : List (String × String)
  identities : List (String × String)
  /-- The names of all pools. -/
  pools : List String
  directory : String
  statistics : List String
  journal : List JournalLine

def System.texts (m : System) : Texts where
  errors := (m.events.flatMap Event.errors).map (·.texts)
  identities := m.state.directory.map (·.1.identity.texts)
  pools := m.state.pools.map (·.pool.name)
  directory := m.state.directory.debug
  statistics := m.state.statistics.map (·.2.json)
  journal := Journal.lines m.state.journal

/-- **No text of a manager shows a password.** -/
theorem System.texts_rename (m : System) : (m.rename π).texts = m.texts := by
  have herrors : ((m.rename π).events.flatMap Event.errors).map (·.texts) =
      (m.events.flatMap Event.errors).map (·.texts) :=
    LeaseError.map_texts_flatMap Event.errors_rename m.events
  have hidentities : (m.rename π).state.directory.map (·.1.identity.texts) =
      m.state.directory.map (·.1.identity.texts) := List.map_map
  have hpools : (m.rename π).state.pools.map (·.pool.name) = m.state.pools.map (·.pool.name) :=
    List.map_map
  have hdirectory : (m.rename π).state.directory.debug = m.state.directory.debug := by
    rw [Directory.debug, Directory.debug, rename, State.rename, List.length_map]
  have hstatistics : (m.rename π).state.statistics.map (·.2.json) =
      m.state.statistics.map (·.2.json) := by
    rw [rename, State.statistics_rename, List.map_map]
    rfl
  have hjournal : Journal.lines (m.rename π).state.journal = Journal.lines m.state.journal :=
    Journal.lines_rename _
  rw [texts, herrors, hidentities, hpools, hdirectory, hstatistics, hjournal]
  rfl

end ConnectionLeasing.Pooled

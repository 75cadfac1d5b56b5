import ConnectionLeasing.Pooled.Operation
import ConnectionLeasing.Proofs.Renaming

/-!
# A pooled manager under other passwords

A pool knows nothing of identities, and its name shows no password. So a pooled manager under other
passwords does what it did before, under other passwords.

* `HandlePool.rename_ofKey`: the pool of an identity, its name included.
* `State.statistics_rename`: the counts of the pools.
* `start_rename`, `resume_rename`: the operations.
-/

namespace ConnectionLeasing

variable {π : Renaming}

/-! ### Pools -/

def PoolKey.rename (π : Renaming) (key : PoolKey) : PoolKey :=
  { key with identity := key.identity.rename π }

theorem PoolKey.rename_injective (hπ : Function.Injective (Identity.rename π)) :
    Function.Injective (PoolKey.rename π) := fun key key' h => by
  obtain ⟨i, channel⟩ := key
  obtain ⟨j, channel'⟩ := key'
  obtain ⟨hidentity, rfl⟩ := PoolKey.mk.inj h
  obtain rfl : i = j := hπ hidentity
  rfl

def Source.rename (π : Renaming) (s : Source) : Source :=
  { s with identity := s.identity.rename π }

def HandlePool.rename (π : Renaming) (p : HandlePool) : HandlePool :=
  { p with source := p.source.rename π }

theorem HandlePool.rename_ofKey (settings : ManagerSettings) (key : PoolKey) (produces : Channel) :
    ofKey settings (key.rename π) produces = (ofKey settings key produces).rename π := rfl

namespace Pool

variable {α : Type}

def Result.rename (π : Renaming) : Result α → Result α
  | failed e => failed (e.rename π)
  | result => result

def Step.rename (π : Renaming) (step : Step α) : Step α :=
  { step with next := step.next.map id (·.rename π) }

variable (p : Pool α)

theorem resumeCreating_rename (made : Except LeaseError α) :
    p.resumeCreating (made.mapError (·.rename π)) = (p.resumeCreating made).rename π := by
  cases made <;> rfl

/-! All other errors of a pool are about the pool. -/

theorem rename_drain (drained : Nat) (cause : Drain) :
    (p.drain drained cause).rename π = p.drain drained cause := by
  unfold drain
  split
  · rfl
  · cases cause <;> rfl

theorem rename_lend (start : Nat) : (p.lend start).rename π = p.lend start := by
  rw [lend]
  split
  · dsimp only
    split <;> rfl
  · split <;> rfl

theorem rename_requeue (now : Nat) (x : Item α) :
    (p.requeue now x).rename π = p.requeue now x := by
  rw [requeue]
  split
  · rfl
  · rename_i q _
    split
    · exact q.rename_drain 0 .returned
    · rfl

theorem rename_restore (evicted : Nat) (others : List (IdleItem α)) :
    (p.restore evicted others).rename π = p.restore evicted others := by
  induction others generalizing p with
  | nil => rfl
  | cons x others ih =>
    rw [restore]
    split
    · rename_i q _
      exact ih q
    · rfl

theorem rename_evict (run : Eviction α) : (p.evict run).rename π = p.evict run := by
  rw [evict]
  split
  · dsimp only
    split <;> rfl
  · exact p.rename_restore _ _

theorem rename_start (now : Nat) (k : Command α) : (p.start now k).rename π = p.start now k := by
  cases k with
  | tryBorrow =>
    rw [start, tryBorrow]
    split
    · rfl
    · exact p.rename_lend now
  | giveBack x =>
    rw [start, giveBack]
    split <;> rfl
  | evictIdle => exact p.rename_evict _
  | close => exact rename_drain _ 0 .close

theorem rename_resumeChecking (now : Nat) (valid : Bool) (c : Check α) :
    (p.resumeChecking now valid c).rename π = p.resumeChecking now valid c := by
  cases c with
  | returned x =>
    rw [resumeChecking]
    split
    · exact p.rename_requeue now x
    · rfl
  | lending x start =>
    rw [resumeChecking]
    split <;> rfl
  | evicting x run =>
    rw [resumeChecking]
    split
    · exact p.rename_evict _
    · rfl

theorem rename_resumeDestroying (d : Disposal α) :
    (p.resumeDestroying d).rename π = p.resumeDestroying d := by
  cases d with
  | returned => rfl
  | stale start => exact p.rename_lend start
  | evicted run => exact p.rename_evict _
  | rejected others evicted => exact p.rename_restore _ others
  | drained drained cause => exact p.rename_drain _ cause

end Pool

theorem Pool.Note.rename_notice (pool : String) (n : Pool.Note) :
    (n.notice pool).rename π = n.notice pool := by
  cases n <;> rfl

namespace Pooled

/-! ### What is renamed -/

section rename
variable (π : Renaming)

def State.rename (s : State) : State :=
  { s with
    directory := s.directory.map (Prod.map (·.rename π) id)
    pools := s.pools.map (·.rename π)
    journal := Journal.rename π s.journal }

def Telling.rename (t : Telling) : Telling := { t with announcement := t.announcement.rename π }

def AfterClosing.rename : AfterClosing → AfterClosing
  | counted => counted
  | called a => called (a.rename π)
  | shutDown => shutDown

def AfterPool.rename : AfterPool → AfterPool
  | caller => caller
  | closing keys destroyed after => closing (keys.map (·.rename π)) destroyed (after.rename π)
  | evicting pools evicted after => evicting pools evicted after

def Frame.rename : Frame → Frame
  | telling o observers t => telling o observers (t.rename π)
  | ticking o observers => ticking o observers
  | inPool id source f after => inPool id (source.rename π) f (after.rename π)

/-- The same answer under other passwords. -/
def Frame.renameAnswer : (f : Frame) → f.call.Answer → (f.rename π).call.Answer
  | telling .., _ => ()
  | ticking .., _ => ()
  | inPool _ _ .creating _, c => c.rename π
  | inPool _ _ (.checking _) _, valid => valid
  | inPool _ _ (.destroying _ _) _, failure => failure.map (·.rename π)

def Result.rename : Result → Result
  | selected id => selected id
  | refused e => refused (e.rename π)
  | pool result => pool (result.rename π)
  | counted n => counted n
  | told => told

def Step.rename (step : Step) : Step :=
  (step.1.rename π, step.2.map (·.rename π) (·.rename π))

def Command.rename : Command → Command
  | select key c => select (key.rename π) c
  | release i c => release (i.rename π) c
  | close i c => close (i.rename π) c
  | tell a => tell (a.rename π)
  | tick => tick
  | closeIdentity i => closeIdentity (i.rename π)
  | closeAll => closeAll
  | evictIdle => evictIdle
  | shutDown => shutDown
  | inPool id k => inPool id k

end rename

variable {s : State}

/-! ### States -/

namespace State

theorem rename_note (n : Notice) : (s.note n).rename π = (s.rename π).note (n.rename π) :=
  congrArg (fun journal => { s.rename π with journal }) (Journal.rename_push s.journal n)

theorem statistics_rename :
    (s.rename π).statistics = s.statistics.map (Prod.map (·.rename π) id) := by
  rw [statistics, statistics, Directory.rows, Directory.rows, rename, List.filterMap_map,
    List.map_filterMap]
  refine List.filterMap_congr fun k _ => ?_
  rw [Function.comp_apply, List.getElem?_map, Option.map_map, Option.map_map]
  rfl

theorem rename_foldl_note {ι : Type} (rows : List ι) (f : ι → Notice) :
    (rows.foldl (fun s x => s.note (f x)) s).rename π =
      rows.foldl (fun s x => s.note ((f x).rename π)) (s.rename π) := by
  induction rows generalizing s with
  | nil => rfl
  | cons x rows ih => rw [List.foldl_cons, List.foldl_cons, ih, rename_note]

theorem rename_summarize : s.summarize.rename π = (s.rename π).summarize := by
  have hlength : (s.rename π).directory.length = s.directory.length := List.length_map _
  rw [summarize, summarize, rename_foldl_note, rename_note, statistics_rename, List.foldl_map,
    hlength]
  rfl

theorem rename_settle (id : Nat) (step : Pool.Step Handle) :
    (s.settle id step).rename π = (s.rename π).settle id (step.rename π) := by
  have hpools : (s.pools.modify id fun p => { p with pool := step.pool }).map (·.rename π) =
      (s.pools.map (·.rename π)).modify id fun p => { p with pool := step.pool } := by
    refine List.ext_getElem? fun n => ?_
    rw [List.getElem?_map, List.getElem?_modify, List.getElem?_modify, List.getElem?_map,
      Option.map_eq_map, Option.map_map, Option.map_map]
    refine congrArg (Option.map · s.pools[n]?) (funext fun p => ?_)
    by_cases hn : id = n <;> simp [hn, HandlePool.rename]
  have hnotes : ((step.notes.map (·.notice step.pool.name)).toArray).map (Notice.rename π) =
      (step.notes.map (·.notice step.pool.name)).toArray := by
    rw [List.map_toArray, List.map_map]
    exact congrArg List.toArray (List.map_congr_left fun n _ => n.rename_notice _)
  have hjournal : Journal.rename π
      (s.journal ++ (step.notes.map (·.notice step.pool.name)).toArray) =
        Journal.rename π s.journal ++ (step.notes.map (·.notice step.pool.name)).toArray := by
    rw [Journal.rename, Array.map_append, hnotes]
    rfl
  rw [settle, settle, rename, hpools, hjournal]
  rfl

theorem getElem?_pools_rename (id : Nat) :
    (s.rename π).pools[id]? = s.pools[id]?.map (·.rename π) := List.getElem?_map ..

theorem poolIds_rename : (s.rename π).poolIds = s.poolIds := by
  rw [poolIds, poolIds, rename, List.map_map]
  rfl

section injective
variable (hπ : Function.Injective (Identity.rename π))
include hπ

theorem statisticsFor_rename (i : Identity) :
    (s.rename π).statisticsFor (i.rename π) = s.statisticsFor i := by
  rw [statisticsFor, statisticsFor, statistics_rename, List.filter_map, List.map_map]
  have hsame : ((fun x : Identity × PoolStatistics => decide (x.1 = i.rename π)) ∘
      Prod.map (·.rename π) id) = fun x => decide (x.1 = i) := by
    funext x
    exact decide_eq_decide.mpr hπ.eq_iff
  rw [hsame]
  rfl

theorem rename_summarizeFor (i : Identity) :
    (s.summarizeFor i).rename π = (s.rename π).summarizeFor (i.rename π) := by
  rw [summarizeFor, summarizeFor, rename_foldl_note, statisticsFor_rename hπ]
  rfl

theorem keysOf_rename (i : Identity) :
    (s.rename π).keysOf (i.rename π) = (s.keysOf i).map (·.rename π) := by
  have hsame : ((fun k : PoolKey => decide (k.identity = i.rename π)) ∘ PoolKey.rename π) =
      fun k => decide (k.identity = i) := by
    funext k
    exact decide_eq_decide.mpr hπ.eq_iff
  have hkeys : (s.rename π).directory.map (·.1) = (s.directory.map (·.1)).map (·.rename π) := by
    rw [rename, List.map_map, List.map_map]
    rfl
  rw [keysOf, keysOf, hkeys, List.filter_map, hsame]

end injective

end State

/-! ### Operations -/

section operations
variable (now : Nat)

theorem rename_done (result : Result) :
    Step.rename π (s, .done result) = (s.rename π, .done (result.rename π)) := rfl

theorem rename_finishClosing (destroyed : Nat) (after : AfterClosing) :
    (finishClosing s destroyed after).rename π =
      finishClosing (s.rename π) destroyed (after.rename π) := by
  cases after with
  | counted => rfl
  | called a =>
    rw [finishClosing, rename_done, State.rename_note]
    rfl
  | shutDown =>
    rw [finishClosing, rename_done, State.rename_note]
    rfl

theorem rename_evictPools {after : AfterEvicting} {k l : State → Nat → Step}
    (hk : ∀ s n, (k s n).rename π = l (s.rename π) n) (evicted : Nat) (ids : List Nat) :
    (evictPools now after k s evicted ids).rename π =
      evictPools now after l (s.rename π) evicted ids := by
  induction ids generalizing s evicted with
  | nil =>
    rw [evictPools, evictPools, hk, apply_ite (State.rename π), State.rename_note]
    rfl
  | cons id ids ih =>
    rw [evictPools, evictPools, State.getElem?_pools_rename]
    cases s.pools[id]? with
    | none => exact ih evicted
    | some p =>
      have hstep : (p.pool.evictIdle now).rename π = p.pool.evictIdle now := p.pool.rename_evict _
      have hsettle : (s.settle id (p.pool.evictIdle now)).rename π = _ :=
        s.rename_settle id (p.pool.evictIdle now)
      rw [hstep] at hsettle
      rw [Option.map_some]
      dsimp only [HandlePool.rename]
      rw [← hsettle]
      cases (p.pool.evictIdle now).next with
      | paused f => rfl
      | done r => exact ih _

section injective
variable (hπ : Function.Injective (Identity.rename π))
include hπ

theorem rename_closeKeys (after : AfterClosing) (destroyed : Nat) (keys : List PoolKey) :
    (closeKeys s after destroyed keys).rename π =
      closeKeys (s.rename π) (after.rename π) destroyed (keys.map (·.rename π)) := by
  induction keys generalizing s destroyed with
  | nil => exact rename_finishClosing destroyed after
  | cons key keys ih =>
    have hkeys := PoolKey.rename_injective hπ
    have hpool : ((Keyed.get? (s.rename π).directory (key.rename π)).bind fun n =>
        (s.rename π).pools[n]?.map (n, ·)) =
      ((Keyed.get? s.directory key).bind fun n => s.pools[n]?.map (n, ·)).map
        (Prod.map id (·.rename π)) := by
      have hget : Keyed.get? (s.rename π).directory (key.rename π) = Keyed.get? s.directory key :=
        (Keyed.get?_map hkeys id s.directory key).trans Option.map_id'
      rw [hget]
      cases Keyed.get? s.directory key with
      | none => rfl
      | some n =>
        rw [Option.bind_some, Option.bind_some, State.getElem?_pools_rename, Option.map_map,
          Option.map_map]
        rfl
    rw [List.map_cons, closeKeys, closeKeys, hpool]
    cases (Keyed.get? s.directory key).bind fun n => s.pools[n]?.map (n, ·) with
    | none => exact ih destroyed
    | some x =>
      obtain ⟨n, p⟩ := x
      have hstep : p.pool.close.rename π = p.pool.close := p.pool.rename_start 0 .close
      let t : State := { s with directory := Keyed.erase s.directory key }
      have hsettle : (t.settle n p.pool.close).rename π = _ := t.rename_settle n p.pool.close
      have herase : t.rename π =
          { s.rename π with directory := Keyed.erase (s.rename π).directory (key.rename π) } :=
        congrArg (fun directory => ({ s.rename π with directory } : State))
          (Keyed.erase_map hkeys _ s.directory key).symm
      rw [hstep, herase] at hsettle
      rw [Option.map_some]
      dsimp only [Prod.map, HandlePool.rename, id]
      rw [← hsettle]
      cases p.pool.close.next with
      | paused f => rfl
      | done r => exact ih _

theorem rename_select (key : PoolKey) :
    (select s key).rename π = select (s.rename π) (key.rename π) := by
  have hproduces : (s.rename π).factory.produces? (key.rename π).channel =
    s.factory.produces? key.channel := rfl
  rw [select, select, hproduces]
  cases s.factory.produces? key.channel with
  | none =>
    rw [rename_done, State.rename_note]
    rfl
  | some produces =>
    have hkeys := PoolKey.rename_injective hπ
    have hget : Keyed.get? (s.rename π).directory (key.rename π) = Keyed.get? s.directory key :=
      (Keyed.get?_map hkeys id s.directory key).trans Option.map_id'
    dsimp only
    rw [hget]
    cases Keyed.get? s.directory key with
    | some n => rfl
    | none =>
      have hlength : (s.rename π).pools.length = s.pools.length := List.length_map _
      have hadded : ({ s with
          directory := Keyed.put s.directory key s.pools.length
          pools := s.pools ++ [HandlePool.ofKey s.settings key produces] } : State).rename π =
        { s.rename π with
          directory := Keyed.put (s.rename π).directory (key.rename π) s.pools.length
          pools := (s.rename π).pools ++ [HandlePool.ofKey s.settings (key.rename π) produces] } := by
        rw [HandlePool.rename_ofKey]
        exact congrArg₂ (fun directory pools => ({ s.rename π with directory, pools } : State))
          (Keyed.put_map hkeys id s.directory key s.pools.length).symm List.map_append
      dsimp only
      rw [rename_done, State.rename_note, hadded, hlength]
      rfl

theorem rename_perform (t : Telling) :
    (perform s t).rename π = perform (s.rename π) (t.rename π) := by
  have hpurpose : (t.rename π).purpose = t.purpose := rfl
  rw [perform, perform, hpurpose]
  cases t.purpose with
  | select channel => exact rename_select hπ _
  | release =>
    rw [rename_done, State.rename_note]
    rfl
  | close =>
    dsimp only
    rw [rename_closeKeys hπ, ← State.keysOf_rename hπ]
    rfl
  | tell => rfl

theorem rename_tell (t : Telling) (observers : List Observer) :
    (tell t s observers).rename π = tell (t.rename π) (s.rename π) observers := by
  induction observers generalizing s with
  | nil =>
    rw [tell, tell]
    exact rename_perform hπ t
  | cons observer observers ih =>
    cases observer with
    | log =>
      rw [tell, tell, ih, State.rename_summarize, State.rename_note]
      rfl
    | inspector =>
      rw [tell, tell, ih, State.rename_summarizeFor hπ]
      rfl
    | poolInspector =>
      rw [tell, tell, ih, State.rename_summarizeFor hπ]
      rfl
    | recorder o =>
      rw [tell, tell]
      rfl

end injective

theorem rename_tick (observers : List Observer) :
    (tick now s observers).rename π = tick now (s.rename π) observers := by
  induction observers generalizing s with
  | nil =>
    rw [tick, tick]
    rfl
  | cons observer observers ih =>
    cases observer with
    | log => rw [tick, tick, ih, State.rename_summarize]
    | inspector | poolInspector =>
      rw [tick, tick, State.poolIds_rename]
      exact rename_evictPools now (fun s _ => ih) 0 s.poolIds
    | recorder o =>
      rw [tick, tick]
      split <;> first | rfl | exact ih

theorem rename_continue (after : AfterEvicting) (evicted : Nat) :
    (after.continue now s evicted).rename π = after.continue now (s.rename π) evicted := by
  cases after with
  | counted => rfl
  | tick observers => exact rename_tick now observers

theorem destroyedBy_rename (r : Pool.Result Handle) : destroyedBy (r.rename π) = destroyedBy r := by
  cases r <;> rfl

theorem took_rename (source : Source) (c : Connected) :
    (s.rename π).took (source.rename π) (c.rename π) =
      Prod.map (·.rename π) (Except.mapError (·.rename π)) (s.took source c) := by
  have hreported : (source.rename π).reported = source.reported := rfl
  obtain ⟨h, failure⟩ := c
  cases failure with
  | some e => rfl
  | none =>
    dsimp only [State.took, Connected.rename, Option.map_none, Prod.map]
    rw [hreported, apply_ite (State.rename π), State.rename_note]
    rfl

theorem gave_rename (source : Source) (failure : Option LeaseError) :
    (s.rename π).gave (source.rename π) (failure.map (·.rename π)) =
      (s.gave source failure).rename π := by
  have hreported : (source.rename π).reported = source.reported := rfl
  cases failure with
  | none => rfl
  | some e =>
    rw [Option.map_some, State.gave, State.gave, hreported, apply_ite (State.rename π),
      State.rename_note]
    rfl

section injective
variable (hπ : Function.Injective (Identity.rename π))
include hπ

theorem rename_afterStep (id : Nat) (source : Source) (after : AfterPool)
    (step : Pool.Step Handle) : (afterStep s now id source after step).rename π =
      afterStep (s.rename π) now id (source.rename π) (after.rename π) (step.rename π) := by
  rw [afterStep, afterStep, ← State.rename_settle]
  obtain ⟨pool, next, notes⟩ := step
  cases next with
  | paused f => rfl
  | done r =>
    cases after with
    | caller => rfl
    | closing keys destroyed after =>
      dsimp only [Pool.Step.rename, Progress.map, AfterPool.rename]
      rw [rename_closeKeys hπ, destroyedBy_rename]
    | evicting ids evicted after =>
      dsimp only [Pool.Step.rename, Progress.map, AfterPool.rename]
      rw [rename_evictPools now (fun s n => rename_continue now after n), destroyedBy_rename]

theorem rename_resumeInPool (id : Nat) (source : Source) (after : AfterPool)
    {f g : Pool Handle → Pool.Step Handle} (hf : ∀ p, (f p).rename π = g p) :
    (resumeInPool s now id source after f).rename π =
      resumeInPool (s.rename π) now id (source.rename π) (after.rename π) g := by
  rw [resumeInPool, resumeInPool, State.getElem?_pools_rename]
  cases s.pools[id]? with
  | none => rfl
  | some p =>
    rw [Option.map_some]
    dsimp only
    rw [rename_afterStep now hπ, hf]
    rfl

/-- **An operation starts under other passwords.** -/
theorem start_rename (k : Command) :
    start (s.rename π) now (k.rename π) = (start s now k).rename π := by
  symm
  have hkeys : (s.rename π).directory.map (·.1) = (s.directory.map (·.1)).map (·.rename π) := by
    rw [State.rename, List.map_map, List.map_map]
    rfl
  cases k with
  | select key c => exact rename_tell hπ _ _
  | release i c => exact rename_tell hπ _ _
  | close i c => exact rename_tell hπ _ _
  | tell a => exact rename_tell hπ _ _
  | tick => exact rename_tick now _
  | closeIdentity i =>
    rw [start, rename_closeKeys hπ, ← State.keysOf_rename hπ]
    rfl
  | closeAll =>
    rw [start, rename_closeKeys hπ, ← hkeys]
    rfl
  | evictIdle =>
    rw [start, rename_evictPools now (fun s n => rename_continue now .counted n),
      ← State.poolIds_rename]
    rfl
  | shutDown =>
    rw [start, rename_closeKeys hπ, ← hkeys]
    rfl
  | inPool id k =>
    rw [Command.rename, start, start, State.getElem?_pools_rename]
    cases s.pools[id]? with
    | none => rfl
    | some p =>
      rw [Option.map_some]
      dsimp only
      rw [rename_afterStep now hπ, p.pool.rename_start]
      rfl

/-- **An operation goes on under other passwords.** -/
theorem resume_rename (f : Frame) (x : f.call.Answer) :
    resume (s.rename π) now (f.rename π) (f.renameAnswer π x) = (resume s now f x).rename π := by
  symm
  cases f with
  | telling o observers t => exact rename_tell hπ t observers
  | ticking o observers => exact rename_tick now observers
  | inPool id source f after =>
    cases f with
    | creating =>
      show (resumeInPool (s.took source x).1 now id source after
          (·.resumeCreating (s.took source x).2)).rename π =
        resumeInPool ((s.rename π).took (source.rename π) (x.rename π)).1 now id (source.rename π)
          (after.rename π) (·.resumeCreating ((s.rename π).took (source.rename π) (x.rename π)).2)
      rw [took_rename]
      exact rename_resumeInPool now hπ id source after fun p => (p.resumeCreating_rename _).symm
    | checking c =>
      exact rename_resumeInPool now hπ id source after fun p => p.rename_resumeChecking now x c
    | destroying item d =>
      show (resumeInPool (s.gave source x) now id source after
          (·.bookDestroyed.resumeDestroying d)).rename π =
        resumeInPool ((s.rename π).gave (source.rename π) (x.map (·.rename π))) now id
          (source.rename π) (after.rename π) (·.bookDestroyed.resumeDestroying d)
      rw [gave_rename]
      exact rename_resumeInPool now hπ id source after
        fun p => p.bookDestroyed.rename_resumeDestroying d

end injective

end operations

end Pooled

end ConnectionLeasing

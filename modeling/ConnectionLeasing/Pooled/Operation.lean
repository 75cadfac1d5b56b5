import ConnectionLeasing.Pooled.Frame

/-!
# The operations of a pooled manager

A borrow is announced and then finds its pool (`select`); the attempts to get a handle from that
pool, and the waiting between them, follow as operations on the pool. Giving a handle back is an
operation on the pool it came from, whatever became of the manager.
-/

namespace ConnectionLeasing.Pooled

/-- What can be asked of a manager. -/
inductive Command
  /-- Announces a borrow and finds the pool for it. -/
  | select (key : PoolKey) (context : ContextId)
  | release (identity : Identity) (context : ContextId)
  | close (identity : Identity) (context : ContextId)
  /-- Only tells the observers. -/
  | tell (announcement : Announcement)
  /-- Shows every observer a tick. -/
  | tick
  | closeIdentity (identity : Identity)
  | closeAll
  | evictIdle
  | shutDown
  /-- Does something with one pool. -/
  | inPool (pool : Nat) (command : Pool.Command Handle)

/-! ### Operations on one pool -/

/-- Takes over what a step of pool number `id` left. -/
def State.settle (s : State) (id : Nat) (step : Pool.Step Handle) : State :=
  { s with
    pools := s.pools.modify id fun p => { p with pool := step.pool }
    journal := s.journal ++ (step.notes.map (·.notice step.pool.name)).toArray }

/-- How many objects an operation on idle objects destroyed. -/
def destroyedBy : Pool.Result Handle → Nat
  | .evicted n => n
  | .closed n => n
  | _ => 0

/-! ### Closing pools -/

def finishClosing (s : State) (destroyed : Nat) : AfterClosing → Step
  | .counted => (s, .done (.counted destroyed))
  | .called a => (s.note (.closedPools a.identity a.context destroyed), .done .told)
  | .shutDown => (s.note (.poolsShutDown destroyed), .done .told)

/-- Removes pools from the directory and closes them one by one. A key whose pool is gone by then is
passed over. -/
def closeKeys (s : State) (after : AfterClosing) (destroyed : Nat) : List PoolKey → Step
  | [] => finishClosing s destroyed after
  | key :: keys =>
    match (Keyed.get? s.directory key).bind fun id => s.pools[id]?.map (id, ·) with
    | none => closeKeys s after destroyed keys
    | some (id, p) =>
      let step := p.pool.close
      let s := { s with directory := Keyed.erase s.directory key }.settle id step
      match step.next with
      | .paused f => (s, .paused (.inPool id p.source f (.closing keys destroyed after)))
      | .done r => closeKeys s after (destroyed + destroyedBy r) keys

def State.keysOf (s : State) (i : Identity) : List PoolKey :=
  (s.directory.map (·.1)).filter fun k => k.identity = i

/-! ### Evicting from pools -/

/-- Evicts idle objects from pools one by one; `k` gets the number of all that were destroyed. -/
def evictPools (now : Nat) (after : AfterEvicting) (k : State → Nat → Step) :
    State → Nat → List Nat → Step
  | s, evicted, [] =>
    k (if evicted = 0 then s else s.note (.evictedConnections evicted)) evicted
  | s, evicted, id :: ids =>
    match s.pools[id]? with
    | none => evictPools now after k s evicted ids
    | some p =>
      let step := p.pool.evictIdle now
      let s := s.settle id step
      match step.next with
      | .paused f => (s, .paused (.inPool id p.source f (.evicting ids evicted after)))
      | .done r => evictPools now after k s (evicted + destroyedBy r) ids

def State.poolIds (s : State) : List Nat := s.directory.map (·.2)

/-! ### Telling observers -/

/-- Finds the pool for a key, or makes it. -/
def select (s : State) (key : PoolKey) : Step :=
  match s.factory.produces? key.channel with
  | none =>
    (s.note (.unsupported key.channel), .done (.refused (.unsupported key.channel)))
  | some produces =>
    match Keyed.get? s.directory key with
    | some id => (s, .done (.selected id))
    | none =>
      let id := s.pools.length
      let s := { s with
        directory := Keyed.put s.directory key id
        pools := s.pools ++ [HandlePool.ofKey s.settings key produces] }
      (s.note (.createdPool key.identity key.channel), .done (.selected id))

/-- Does what a call was announced for. -/
def perform (s : State) (t : Telling) : Step :=
  let a := t.announcement
  match t.purpose with
  | .select channel => select s ⟨a.identity, channel⟩
  | .release => (s.note (.releasedByDropping a.identity a.context), .done .told)
  | .close => closeKeys s (.called a) 0 (s.keysOf a.identity)
  | .tell => (s, .done .told)

/-- Tells observers of a call one after the other, then does what it was announced for. -/
def tell (t : Telling) : State → List Observer → Step
  | s, [] => perform s t
  | s, .log :: observers => tell t (s.note (.managerCall t.announcement)).summarize observers
  | s, .inspector :: observers => tell t (s.summarizeFor t.announcement.identity) observers
  | s, .poolInspector :: observers => tell t (s.summarizeFor t.announcement.identity) observers
  | s, .recorder o :: observers => (s, .paused (.telling o observers t))

/-- Shows observers a tick one after the other. -/
def tick (now : Nat) : State → List Observer → Step
  | s, [] => (s, .done .told)
  | s, .log :: observers => tick now s.summarize observers
  | s, .inspector :: observers =>
    evictPools now (.tick observers) (fun s _ => tick now s observers) s 0 s.poolIds
  | s, .poolInspector :: observers =>
    evictPools now (.tick observers) (fun s _ => tick now s observers) s 0 s.poolIds
  | s, .recorder o :: observers =>
    if o.ticks then (s, .paused (.ticking o observers)) else tick now s observers

/-- What a finished eviction goes on with. -/
def AfterEvicting.continue (now : Nat) : AfterEvicting → State → Nat → Step
  | counted => fun s evicted => (s, .done (.counted evicted))
  | tick observers => fun s _ => Pooled.tick now s observers

/-! ### The machine -/

/-- Goes on after a step of one pool. -/
def afterStep (s : State) (now id : Nat) (source : Source) (after : AfterPool)
    (step : Pool.Step Handle) : Step :=
  let s := s.settle id step
  match step.next with
  | .paused f => (s, .paused (.inPool id source f after))
  | .done r =>
    match after with
    | .caller => (s, .done (.pool r))
    | .closing keys destroyed after => closeKeys s after (destroyed + destroyedBy r) keys
    | .evicting ids evicted after =>
      evictPools now after (after.continue now) s (evicted + destroyedBy r) ids

/-- Starts an operation. -/
def start (s : State) (now : Nat) : Command → Step
  | .select key c =>
    tell ⟨⟨.borrow, key.identity, c⟩, .select key.channel⟩ s s.observers
  | .release i c => tell ⟨⟨.release, i, c⟩, .release⟩ s s.observers
  | .close i c => tell ⟨⟨.close, i, c⟩, .close⟩ s s.observers
  | .tell a => tell ⟨a, .tell⟩ s s.observers
  | .tick => tick now s s.observers
  | .closeIdentity i => closeKeys s .counted 0 (s.keysOf i)
  | .closeAll => closeKeys s .counted 0 (s.directory.map (·.1))
  | .evictIdle => evictPools now .counted (AfterEvicting.counted.continue now) s 0 s.poolIds
  | .shutDown => closeKeys s .shutDown 0 (s.directory.map (·.1))
  | .inPool id command =>
    match s.pools[id]? with
    | none => (s, .done .told)
    | some p => afterStep s now id p.source .caller (p.pool.start now command)

/-- Goes on with an operation on pool number `id` by the step `f` of that pool. -/
def resumeInPool (s : State) (now id : Nat) (source : Source) (after : AfterPool)
    (f : Pool Handle → Pool.Step Handle) : Step :=
  match s.pools[id]? with
  | none => (s, .done .told)
  | some p => afterStep s now id source after (f p.pool)

/-- Reports an opened connection and hands it over. -/
def State.took (s : State) (source : Source) (c : Connected) : State × Except LeaseError Handle :=
  match c.failure with
  | some e => (s, .error e)
  | none =>
    (if source.reported then s.note (.opened source.identity source.channel) else s, .ok c.handle)

/-- Reports a failed disconnect. -/
def State.gave (s : State) (source : Source) : Option LeaseError → State
  | some e =>
    if source.reported then s.note (.poolDisconnectFailed source.identity source.channel e) else s
  | none => s

/-- Goes on with an operation that has its answer. -/
def resume (s : State) (now : Nat) : (f : Frame) → f.call.Answer → Step
  | .telling _ observers t, _ => tell t s observers
  | .ticking _ observers, _ => tick now s observers
  | .inPool id source .creating after, connected =>
    let (s, made) := s.took source connected
    resumeInPool s now id source after (·.resumeCreating made)
  | .inPool id source (.checking c) after, valid =>
    resumeInPool s now id source after (·.resumeChecking now valid c)
  | .inPool id source (.destroying _ d) after, failure =>
    resumeInPool (s.gave source failure) now id source after (·.bookDestroyed.resumeDestroying d)

end ConnectionLeasing.Pooled

import ConnectionLeasing.Scenario.World
import ConnectionLeasing.Waiting

/-!
# What machines meet outside

The answers to the calls of a machine, the running of an operation to its end, and the passing of
time. All of it may run further actions: those hooked to a call, and those put off to a moment. How
an action is run is a parameter here, so the actions inside an action need not be finished first.

The loops are bounded by `patience`, which no scenario of a sensible length uses up.
-/

namespace ConnectionLeasing.Scenario

/-- How an action is run: the world it leaves and its reply. -/
abbrev Run := Action → World → World × Reply

/-- A bound on the steps of one operation and on the events of one wait. -/
def patience : Nat := 1000000000000

/-- Runs actions in order and records their replies. -/
def runAll (run : Run) : List Action → World → World
  | [], w => w
  | a :: actions, w =>
    let (w, reply) := run a w
    runAll run actions (w.event (.did a.name reply))

/-- The oldest hook for a key, and the hooks without it. -/
def takeHook? (key : String) :
    List (String × List Action) → Option (List Action × List (String × List Action))
  | [] => none
  | h :: hooks =>
    if h.1 = key then some (h.2, hooks)
    else (takeHook? key hooks).map fun found => (found.1, h :: found.2)

/-- Runs the oldest hook for a key, if there is one; it runs once only. -/
def runHook (run : Run) (key : String) (w : World) : World :=
  match takeHook? key w.hooks with
  | none => w
  | some (actions, hooks) => runAll run actions ({ w with hooks }.event (.hook key))

/-! ### Calls -/

/-- Whether a handle is valid, after its hook has run. -/
def validity (run : Run) (handle : Nat) (w : World) : World × Bool :=
  let w := runHook run s!"valid:{handle}" w
  (w, (w.backend.connection handle).isValid)

/-- Builds a connection and connects it. -/
def connect (run : Run) (channel : Channel) (i : Identity) (timeout : Duration) (w : World) :
    World × Connected :=
  let (backend, h) := w.backend.construct channel
  let w := runHook run "connect" ({ w with backend }.event (.connect h.number channel i timeout))
  let (backend, failure) := w.backend.connect h.number i
  ({ w with backend }, ⟨h, failure⟩)

def disconnect (run : Run) (h : Handle) (w : World) : World × Option LeaseError :=
  let w := { w.event (.disconnect h.number) with backend := w.backend.beginDisconnect h.number }
  let w := runHook run s!"disconnect:{h.number}" w
  (w, w.backend.disconnectFault)

/-- How a recorder ends: as it should, or with its own message. -/
def Recorder.outcome (o : Recorder) : Except String Unit :=
  if o.panics then .error s!"observer {o.name} failed" else .ok ()

/-- The answer to a call; an observer that fails gives its message instead. -/
def answer (run : Run) (target : Target) :
    (c : Call) → World → World × Except String c.Answer
  | .visit o a, w =>
    let w := runHook run s!"visit:{o.name}" (w.event (.visit o.name a (w.sight target)))
    (w, Recorder.outcome o)
  | .tick o, w =>
    let w := (w.event (.tick o.name (w.sight target))).record (.shown o)
    let w := runHook run s!"tick:{o.name}" w
    (w, Recorder.outcome o)
  | .check h, w =>
    let (w, valid) := validity run h.number w
    (w, .ok (valid && !(w.backend.connection h.number).isClosed))
  | .connect channel i timeout, w =>
    let (w, connected) := connect run channel i timeout w
    (w, .ok connected)
  | .disconnect h, w =>
    let (w, failure) := disconnect run h w
    (w, .ok failure)

/-! ### Operations -/

/-- Answers the calls of an operation until it is done. An observer that fails ends it. -/
def drive {S F R : Type} (run : Run) (machine : Machine S F R) (site : Site S) :
    Nat → Progress F R → World → World × Except String R
  | _, .done r, w => (w, .ok r)
  | 0, .paused _, w => (w, .error "out of patience")
  | steps + 1, .paused f, w =>
    match answer run site.target (machine.call f) w with
    | (w, .error message) => (w, .error message)
    | (w, .ok a) =>
      let (s, progress) := machine.resume (site.read w) w.now f a
      drive run machine site steps progress (site.write w s)

/-- Runs an operation at a site. -/
def operate {S F R : Type} (run : Run) (machine : Machine S F R) (site : Site S)
    (start : S → Nat → S × Progress F R) (w : World) : World × Except String R :=
  let (s, progress) := start (site.read w) w.now
  drive run machine site patience progress (site.write w s)

/-- An operation of a context-affine manager. -/
def onBasic (run : Run) (id : Nat) (c : Affine.Command) (w : World) :
    World × Except String Affine.Result :=
  operate run affine (.basic w id (w.basic id).monitor) (fun s now => Affine.start s now c) w

/-- An operation of a pooled manager. -/
def onPooled (run : Run) (id : Nat) (c : Pooled.Command) (w : World) :
    World × Except String Pooled.Result :=
  operate run pooling (.pooled w id (w.pooled id).monitor) (fun s now => Pooled.start s now c) w

/-- An operation of a pool. -/
def onPool (run : Run) (id : Nat) (c : Pool.Command Handle) (w : World) :
    World × Except String Pooled.Result :=
  operate run pooling .pools (fun s now => Pooled.start s now (.inPool id c)) w

/-- Has the observers of a monitor told of a call or shown a tick. -/
def onMonitor (run : Run) (id : Nat) (ca : Affine.Command) (cp : Pooled.Command) (w : World) :
    World × Except String Unit :=
  let done {R : Type} (x : World × Except String R) : World × Except String Unit :=
    (x.1, x.2.map fun _ => ())
  let m := w.monitor id
  match m.owner, m.target with
  | .basic b, _ =>
    done (operate run affine (.basic w b id) (fun s now => Affine.start s now ca) w)
  | .pooled p, _ =>
    done (operate run pooling (.pooled w p id) (fun s now => Pooled.start s now cp) w)
  | .nobody, .registry r =>
    done (operate run affine (.bareRegistry id r) (fun s now => Affine.start s now ca) w)
  | .nobody, .directory d =>
    done (operate run pooling (.bareDirectory id d) (fun s now => Pooled.start s now cp) w)

/-! ### Time -/

/-- Something due. -/
inductive Due
  | postponed (index : Nat) (p : Postponed)
  | tick (monitor : Nat) (task : Task) (due : Nat)

/-- The first of the least elements under an order. -/
def firstLeast? {α : Type} (le : α → α → Bool) (list : List α) : Option α :=
  (list.mergeSort le).head?

/-- What is due next, up to a moment: what was put off, before ticks of the same moment. -/
def World.nextDue? (w : World) (limit : Nat) : Option Due :=
  let postponed := firstLeast? (fun a b : Postponed × Nat => a.1.due ≤ b.1.due)
    (w.postponed.zipIdx.filter fun x => x.1.due ≤ limit)
  let ticks := w.monitors.zipIdx.filterMap fun (m, id) =>
    m.schedule.task.bind fun t => t.due.bind fun due =>
      if due ≤ limit then some (id, t, due) else none
  let tick := firstLeast? (fun (_, t, dueT) (_, u, dueU) =>
    dueT < dueU || (dueT = dueU && t.turn ≤ u.turn)) ticks
  match postponed, tick with
  | some (p, index), some (id, t, due) =>
    some (if p.due ≤ due then .postponed index p else .tick id t due)
  | some (p, index), none => some (.postponed index p)
  | none, some (id, t, due) => some (.tick id t due)
  | none, none => none

/-- A tick of a monitor's task begins. -/
def World.beginTick (w : World) (t : Tick) : World :=
  (w.mapMonitor t.schedule fun m => { m with schedule := m.schedule.beginTick }).record
    (.began t (w.monitor t.schedule).observers)

/-- A tick ends, by a failure or not. If its task is still live, that waits for the next one. -/
def World.endTick (w : World) (t : Tick) (failure : Option String) : World :=
  let w := w.record (.ended t failure)
  { w.mapMonitor t.schedule fun m =>
      { m with schedule := m.schedule.endTick t.task w.now w.turn } with
    turn := w.turn + 1 }

/-- Runs a tick of a monitor's task. An observer that fails ends the tick and not the task. -/
def runTick (run : Run) (id : Nat) (t : Task) (w : World) : World :=
  let tick : Tick := ⟨id, t.id, w.now⟩
  match onMonitor run id .tick .tick (w.beginTick tick) with
  | (w, .ok _) => w.endTick tick none
  | (w, .error message) => (w.notice .tickPanicked).endTick tick (some message)

/-- Runs what is due at its moment. -/
def runDue (run : Run) (d : Due) (w : World) : World :=
  match d with
  | .postponed index p =>
    let w := { w with now := max w.now p.due, postponed := w.postponed.eraseIdx index }
    runAll run p.actions (w.event (.later w.now))
  | .tick id t due => runTick run id t { w with now := max w.now due }

/-- Lets time pass up to a moment, what is due meanwhile running first; or only until `woken` holds,
and what is due at the same moment then stays due. -/
def passTime (run : Run) (limit : Nat) (woken : World → Bool) : Nat → World → World
  | 0, w => w
  | steps + 1, w =>
    if woken w then w
    else
      match w.nextDue? limit with
      | some d => passTime run limit woken steps (runDue run d w)
      | none => { w with now := max w.now limit }

/-! ### Borrowing from pools -/

/-- One try to borrow from a pool. -/
def attempt (run : Run) (pool : Nat) (w : World) :
    World × Except LeaseError (Option (Item Handle)) :=
  match onPool run pool .tryBorrow w with
  | (w, .ok (.pool (.lent x))) => (w, .ok (some x))
  | (w, .ok (.pool (.failed e))) => (w, .error e)
  | (w, .ok _) => (w, .ok none)
  | (w, .error message) => (w, .error (.internal message))

/-- What a borrower that waits for a pool knows of the world. -/
def surroundings (run : Run) (pool : Nat) : Waiting.Surroundings World (Item Handle) where
  now w := w.now
  signals w := (w.pools[pool]?.map (·.pool.signals)).getD 0
  attempt := attempt run pool
  sleep limit woken w := passTime run limit woken patience w

/-- Gives a lent object back. -/
def dropGuard (run : Run) (g : Guard) (w : World) : World :=
  (onPool run g.pool (.giveBack g.item) w).1

/-- Keeps a lent object under a name; one that was kept there before is given back. -/
def keepGuard (run : Run) (name : String) (g : Guard) (w : World) : World :=
  let old := Keyed.get? w.guards name
  let w := { w with guards := Keyed.put w.guards name g }
  match old with
  | some old => dropGuard run old w
  | none => w

end ConnectionLeasing.Scenario

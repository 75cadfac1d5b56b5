import ConnectionLeasing.Exposition
import ConnectionLeasing.Scenario.Outside

/-!
# Performing actions

What each action does to the world, and its reply. `perform` runs an action with the actions inside
it; it is bounded by how deeply actions can be nested, for which the number of actions of a script
is enough because each runs at most once.
-/

namespace ConnectionLeasing.Scenario

/-! ### Making and dropping things -/

def World.factory (w : World) (r : Recipe) : Factory :=
  match r.named.bind w.thing? with
  | some (.factory f) => f
  | _ => .ofList r.constructors

/-- Switches the schedule of a monitor on or off. -/
def setEnabled (id : Nat) (enabled : Bool) (w : World) : World :=
  let fault := w.spawnFault w.turn
  let w := w.notices ((w.monitor id).schedule.setEnabledNotices enabled fault)
  let w := w.record (.switched id enabled fault)
  { w.mapMonitor id fun m =>
      { m with schedule := m.schedule.setEnabled w.now w.turn enabled fault } with
    turn := w.turn + 1 }

/-- Stops the schedule of a monitor. -/
def stopSchedule (id : Nat) (w : World) : World :=
  ((w.notices (w.monitor id).schedule.stopNotices).record (.stopped id)).mapMonitor id fun m =>
    { m with schedule := m.schedule.stop }

/-- Stores a period for the next task of a monitor. -/
def storePeriod (id : Nat) (period : Duration) (w : World) : World :=
  (w.record (.stored id period)).mapMonitor id fun m =>
    { m with schedule := m.schedule.setPeriod period }

/-- Stops a thing's schedule and closes what it manages. -/
def shutDown (run : Run) (t : Thing) (w : World) : World :=
  match t with
  | .basic id => (onBasic run id .closeAll (stopSchedule (w.basic id).monitor w)).1
  | .pooled id => (onPooled run id .shutDown (stopSchedule (w.pooled id).monitor w)).1
  | .monitor id => stopSchedule id w
  | .pool _ => w
  | .factory _ => w

/-- Shuts a thing down, unless it has a name or a running action works with it. -/
def retire (run : Run) (t : Thing) (w : World) : World :=
  if t ∈ w.inUse ∨ t ∈ w.things.map (·.2) then w else shutDown run t w

/-- Runs an action that works with a thing. If the thing has lost its name when its last such action
ends, it is shut down then. -/
def working (run : Run) (subject : Option Thing) (f : World → World × Reply) (w : World) :
    World × Reply :=
  match subject with
  | none => f w
  | some t =>
    let (w, reply) := f { w with inUse := t :: w.inUse }
    (retire run t { w with inUse := w.inUse.erase t }, reply)

/-- Puts a thing under a name; one that was there before is retired. -/
def place (run : Run) (name : String) (t : Thing) (w : World) : World :=
  let old := w.thing? name
  let w := { w with things := Keyed.put w.things name t }
  match old with
  | some old => retire run old w
  | none => w

/-- A new monitor; `enabled` starts its schedule. -/
def addMonitor (m : Monitor) (enabled : Bool) (w : World) : World :=
  let id := w.monitors.length
  let w := ({ w with monitors := w.monitors ++ [m] }).record (.added id m.schedule.period)
  if enabled then setEnabled id true w else w

def makeBasic (run : Run) (name : String) (s : Setup) (w : World) : World :=
  let id := w.basics.length
  let registry := w.registries.length
  let manager : BasicManager := ⟨s.settings, w.factory s.recipe, registry, w.monitors.length, {}⟩
  let w := { w with
    registries := w.registries ++ [Registry.empty]
    basics := w.basics ++ [manager] }
  let monitor : Monitor :=
    ⟨.basic id, .registry registry, [.log, .inspector], { period := s.settings.schedulePeriod }⟩
  place run name (.basic id) (addMonitor monitor s.settings.autoInspect w)

def makePooled (run : Run) (name : String) (s : Setup) (w : World) : World :=
  let id := w.pooleds.length
  let directory := w.directories.length
  let manager : PooledManager := ⟨s.settings, w.factory s.recipe, directory, w.monitors.length⟩
  let w := { w with directories := w.directories ++ [[]], pooleds := w.pooleds ++ [manager] }
  let monitor : Monitor :=
    ⟨.pooled id, .directory directory, [.log, .poolInspector],
      { period := s.settings.schedulePeriod }⟩
  place run name (.pooled id) (addMonitor monitor s.settings.autoInspect w)

/-- Where a bare pool gets its objects. -/
def bareSource : Source := ⟨⟨"pool", 0, "object", ""⟩, .sftp, .sftp, ⟨0⟩, false⟩

def makePool (run : Run) (name title : String) (max : Option Nat) (idleTimeout : Option Duration)
    (w : World) : World :=
  let settings : PoolSettings := {}
  let settings := { settings with maxSize := max.getD settings.maxSize, idleTimeout }
  let id := w.pools.length
  let w := { w with pools := w.pools ++ [HandlePool.mk (.create title settings) bareSource] }
  place run name (.pool id) w

def makeMonitor (run : Run) (name : String) (watched : Watched) (period : Duration) (w : World) :
    World :=
  let (w, target) := match w.managed? watched.manager with
    | some target => (w, target)
    | none =>
      if watched.directory then
        ({ w with directories := w.directories ++ [[]] }, Target.directory w.directories.length)
      else
        ({ w with registries := w.registries ++ [Registry.empty] }, .registry w.registries.length)
  let id := w.monitors.length
  place run name (.monitor id) (addMonitor ⟨.nobody, target, [], { period }⟩ false w)

/-! ### Replies -/

def replyOf (r : World × Except String α) (f : α → Reply) : World × Reply :=
  match r with
  | (w, .ok x) => (w, f x)
  | (w, .error message) => (w, .panicked message)

def affineReply : Affine.Result → Reply
  | .lent h => .lent h.number
  | .refused e => .failed e
  | .released held => .flag held
  | .closed held => .flag held
  | .swept report => .swept report
  | .closedAll n => .number n
  | .told => .nothing

def pooledReply : Pooled.Result → Reply
  | .refused e => .failed e
  | .pool (.closed n) => .number n
  | .pool (.evicted n) => .number n
  | .pool (.failed e) => .failed e
  | .counted n => .number n
  | _ => .nothing

/-- The reply to a borrow from a pool; what was lent is kept under the name of its guard. -/
def guardReply (run : Run) (guard : String) (pool : Nat) (managed : Bool)
    (r : World × Option (Except LeaseError (Item Handle))) : World × Reply :=
  match r with
  | (w, some (.ok x)) =>
    (keepGuard run guard ⟨pool, x, managed⟩ w, .guarded x.value.number x.id)
  | (w, some (.error e)) => (w, .failed e)
  | (w, none) => (w, .failed (.internal "out of patience"))

/-! ### Borrowing -/

/-- Announces a borrow to the observers of a pooled manager and borrows from its pool by `wait`. -/
def borrowPooled (run : Run) (id : Nat) (key : PoolKey) (guard : String)
    (wait : Waiting.Surroundings World (Item Handle) → Duration → Nat → World →
      World × Option (Except LeaseError (Item Handle))) (w : World) : World × Reply :=
  let limit := (w.pooled id).settings.borrowMaxWait
  match onPooled run id (.select key w.context) w with
  | (w, .ok (.selected pool)) =>
    guardReply run guard pool true (wait (surroundings run pool) limit patience w)
  | (w, .ok (.refused e)) => (w, .failed e)
  | (w, .ok _) => (w, .nothing)
  | (w, .error message) => (w, .panicked message)

def borrow (run : Run) (name : String) (i : Identity) (channel : Channel)
    (context : Option ContextId) (guard : String) (wait : Duration) (w : World) : World × Reply :=
  match w.thing? name with
  | some (.basic id) =>
    replyOf (onBasic run id (.borrow ⟨i, context.getD w.context, channel⟩) w) affineReply
  | some (.pooled id) => borrowPooled run id ⟨i, channel⟩ guard Waiting.block w
  | some (.pool id) =>
    guardReply run guard id false (Waiting.block (surroundings run id) wait patience w)
  | _ => (w, .nothing)

def borrowAsync (run : Run) (name : String) (i : Identity) (channel : Channel) (guard : String)
    (wait : Duration) (w : World) : World × Reply :=
  match w.thing? name with
  | some (.pooled id) => borrowPooled run id ⟨i, channel⟩ guard Waiting.poll w
  | some (.pool id) =>
    guardReply run guard id false (Waiting.poll (surroundings run id) wait patience w)
  | _ => (w, .nothing)

def tryBorrow (run : Run) (name guard : String) (w : World) : World × Reply :=
  match w.thing? name with
  | some (.pool id) =>
    match attempt run id w with
    | (w, .ok none) => (w, .nothing)
    | (w, .ok (some x)) => guardReply run guard id false (w, some (.ok x))
    | (w, .error e) => (w, .failed e)
  | _ => (w, .nothing)

def giveBack (run : Run) (guard : String) (w : World) : World × Reply :=
  match Keyed.get? w.guards guard with
  | none => (w, .nothing)
  | some g =>
    let h := g.item.value
    let reply := if g.managed then Reply.returnedConnection g.item.id h.channel
      else .returnedObject g.item.id h.number
    (dropGuard run g { w with guards := Keyed.erase w.guards guard }, reply)

/-! ### Giving back -/

/-- The reply is the operation's own for a given context, and nothing for the caller's own. -/
def forContext (context : Option ContextId) (f : α → Reply) (x : α) : Reply :=
  if context.isSome then f x else .nothing

def release (run : Run) (name : String) (i : Identity) (context : Option ContextId) (w : World) :
    World × Reply :=
  let c := context.getD w.context
  match w.thing? name with
  | some (.basic id) => replyOf (onBasic run id (.release i c) w) (forContext context affineReply)
  | some (.pooled id) => replyOf (onPooled run id (.release i w.context) w) pooledReply
  | _ => (w, .nothing)

def close (run : Run) (name : String) (i : Identity) (context : Option ContextId) (w : World) :
    World × Reply :=
  let c := context.getD w.context
  match w.thing? name with
  | some (.basic id) => replyOf (onBasic run id (.close i c) w) (forContext context affineReply)
  | some (.pooled id) => replyOf (onPooled run id (.close i w.context) w) pooledReply
  | some (.pool id) => replyOf (onPool run id .close w) pooledReply
  | _ => (w, .nothing)

/-! ### Handles and factories -/

def create (run : Run) (name : String) (i : Identity) (channel : Channel) (timeout : Duration)
    (w : World) : World × Reply :=
  match w.thing? name with
  | some (.factory f) =>
    match f.produces? channel with
    | none => (w.notice (.unsupported channel), .failed (.unsupported channel))
    | some produces =>
      match connect run produces i timeout w with
      | (w, ⟨_, some e⟩) => (w, .failed e)
      | (w, ⟨h, none⟩) =>
        let (w, valid) := validity run h.number (w.notice (.opened i channel))
        (w, .created h.number h.channel valid (w.backend.connection h.number).isClosed)
  | _ => (w, .nothing)

def setHandle (run : Run) (number : Nat) (valid closed connected : Option Bool) (w : World) :
    World × Reply :=
  let backend := w.backend.map number fun c => { c with
    valid := valid.getD c.valid
    forcedClosed := closed.getD c.forcedClosed
    connected := connected.getD c.connected }
  let (w, isValid) := validity run number { w with backend }
  (w, .probed isValid (w.backend.connection number).isClosed)

/-! ### Registries -/

/-- Shows a slot that was found, and keeps it under a name. -/
def foundSlot (keep : String) (quiet : Bool) (found : Option Nat) (w : World) : World × Reply :=
  match found with
  | none => (w, .nothing)
  | some id =>
    ({ w with kept := Keyed.put w.kept keep id },
      if quiet then .flag true
      else (w.slots[id]?.map fun s => Reply.slot (.ofSlot s)).getD .nothing)

def World.withRegistry (w : World) (id : Nat) (r : Registry × Option Nat) : World × Option Nat :=
  ({ w with registries := w.registries.set id r.1 }, r.2)

/-! ### Reports -/

def info (name : String) (w : World) : Reply :=
  match w.thing? name with
  | some (.basic id) => .texts ["Basic", (w.basic id).settings.debug]
  | some (.pooled id) =>
    let m := w.pooled id
    .texts ["Pooled", m.settings.debug, (w.directory m.directory).debug]
  | _ => .nothing

def World.poolRows (w : World) (directory : Nat) : List (Identity × PoolStatistics) :=
  (w.directory directory).rows w.pools

def serialized (name : String) (w : World) : Reply :=
  match w.targetOf? name with
  | some (.registry id) =>
    .text (Text.Json.array ((sortedBy (fun x => x) (w.statistics id)).map (·.json)))
  | some (.directory id) =>
    .texts (sortedBy (fun x => x) ((w.poolRows id).map (·.2.json)))
  | none => .nothing

def World.metrics (w : World) (id : Nat) : Metrics :=
  .ofStatistics (w.basic id).ledger (w.statistics (w.basic id).registry)

def health (name : String) (w : World) : Reply :=
  match w.thing? name with
  | some (.basic id) =>
    let m := w.basic id
    match HealthStatus.report (w.statistics m.registry) m.settings.maxConnections with
    | .ok status => .health { status with warnings := sortedBy (fun x => x) status.warnings }
    | .error overflow => .panicked overflow.message
  | _ => .nothing

/-! ### All actions -/

/-- Performs one action; the actions inside it are run by `run`. -/
def performWith (run : Run) (a : Action) (w : World) : World × Reply :=
  let silent (w : World) : World × Reply := (w, .nothing)
  match a with
  | .basic name setup => silent (makeBasic run name setup w)
  | .pooled name setup => silent (makePooled run name setup w)
  | .pool name title max idleTimeout => (makePool run name title max idleTimeout w, .text title)
  | .monitor name watched period => silent (makeMonitor run name watched period w)
  | .factory name recipe => silent (place run name (.factory (w.factory recipe)) w)
  | .register name channel produces =>
    match w.thing? name with
    | some (.factory f) =>
      silent { w with things := Keyed.put w.things name (.factory (f.register channel produces)) }
    | _ => silent w
  | .create name i channel timeout => create run name i channel timeout w
  | .drop name =>
    match w.thing? name with
    | none => (w, .flag false)
    | some t => (retire run t { w with things := Keyed.erase w.things name }, .flag true)
  | .advance span => silent (passTime run (span.after w.now) (fun _ => false) patience w)
  | .later span actions =>
    silent { w with postponed := w.postponed ++ [⟨span.after w.now, actions⟩] }
  | .hook key actions => silent { w with hooks := w.hooks ++ [(key, actions)] }
  | .connectFault fault => silent { w with backend := { w.backend with connectFault := fault } }
  | .disconnectFault fault =>
    silent { w with backend := { w.backend with disconnectFault := fault } }
  | .setHandle number valid closed connected => setHandle run number valid closed connected w
  | .enter c => ({ w with context := c }, .number w.context.number)
  | .current => (w, .number w.context.number)
  | .borrow name i channel context guard wait => borrow run name i channel context guard wait w
  | .borrowAsync name i channel guard wait => borrowAsync run name i channel guard wait w
  | .tryBorrow name guard => tryBorrow run name guard w
  | .giveBack guard => giveBack run guard w
  | .release name i context => release run name i context w
  | .close name i context => close run name i context w
  | .sweep name =>
    match w.thing? name with
    | some (.basic id) => replyOf (onBasic run id .sweep w) affineReply
    | _ => silent w
  | .inspect name | .tick name =>
    match w.monitorOf? name with
    | some id => replyOf (onMonitor run id .tick .tick w) fun _ => .nothing
    | none => silent w
  | .closeAll name =>
    match w.thing? name with
    | some (.basic id) => replyOf (onBasic run id .closeAll w) affineReply
    | some (.pooled id) => replyOf (onPooled run id .closeAll w) pooledReply
    | _ => silent w
  | .shutdown name =>
    match w.thing? name with
    | some t => silent (shutDown run t w)
    | none => silent w
  | .evictIdle name =>
    match w.thing? name with
    | some (.pooled id) => replyOf (onPooled run id .evictIdle w) pooledReply
    | some (.pool id) => replyOf (onPool run id .evictIdle w) pooledReply
    | _ => silent w
  | .closeIdentity name i =>
    match w.thing? name with
    | some (.pooled id) => replyOf (onPooled run id (.closeIdentity i) w) pooledReply
    | _ => silent w
  | .statisticsFor name i =>
    match w.targetOf? name with
    | some (.directory id) =>
      let rows := ((w.poolRows id).filter fun x => x.1 = i).map (·.2)
      let pools := (w.directory id).length
      (w, .statistics (sortedBy (fun x => x) rows) pools (pools = 0))
    | _ => silent w
  | .info name => (w, info name w)
  | .serialized name => (w, serialized name w)
  | .health name => (w, health name w)
  | .metrics name =>
    match w.thing? name with
    | some (.basic id) => (w, .metrics (w.metrics id))
    | _ => silent w
  | .exposition name manager tags =>
    match w.thing? name with
    | some (.basic id) => (w, .text (Exposition.text (w.metrics id) manager tags))
    | _ => silent w
  | .attach name observer =>
    match w.monitorOf? name with
    | some id => silent (w.mapMonitor id fun m => { m with observers := m.observers ++ [observer] })
    | none => silent w
  | .notify name announcement =>
    match w.monitorOf? name with
    | some id =>
      replyOf (onMonitor run id (.tell announcement) (.tell announcement) w) fun _ => .nothing
    | none => silent w
  | .setAuto name enabled =>
    match w.monitorOf? name with
    | some id => silent (setEnabled id enabled w)
    | none => silent w
  | .setPeriod name period =>
    match w.monitorOf? name with
    | some id => silent (storePeriod id period w)
    | none => silent w
  | .stop name =>
    match w.monitorOf? name with
    | some id => silent (stopSchedule id w)
    | none => silent w
  | .slot name i c keep quiet =>
    match w.registryOf? name with
    | some id => foundSlot keep quiet ((w.registry id).slot? i c) w
    | none => silent w
  | .remove name i c keep quiet =>
    match w.registryOf? name with
    | some id =>
      let (w, found) := w.withRegistry id ((w.registry id).remove i c)
      foundSlot keep quiet found w
    | none => silent w
  | .put name i c slot keep quiet =>
    match w.registryOf? name, Keyed.get? w.kept slot with
    | some id, some s =>
      let (w, found) := w.withRegistry id ((w.registry id).put i c s)
      foundSlot keep quiet found w
    | _, _ => silent w
  | .slotInfo slot =>
    (w, (((Keyed.get? w.kept slot).bind fun id => w.slots[id]?).map fun s =>
      Reply.slot (.ofSlot s)).getD .nothing)
  | .entry name i =>
    match (w.registryOf? name).map w.registry with
    | none => silent w
    | some r =>
      match r.entryId? i with
      | none => silent w
      | some e =>
        let e := r.entry e
        (w, .entry e.size e.slots.isEmpty e.pending (slotViews w.slots e))
  | .registry name i =>
    match (w.registryOf? name).map w.registry with
    | none => silent w
    | some r => (w, .registry r.size r.known.isEmpty r.totalSlots (r.slotCount i))

/-- Performs an action, with actions inside actions up to the given depth. -/
def perform : Nat → Run
  | 0, _, w => (w, .nothing)
  | depth + 1, a, w =>
    working (perform depth) (a.subject?.bind w.thing?) (performWith (perform depth) a) w

end ConnectionLeasing.Scenario

import ConnectionLeasing.Affine.Borrow
import ConnectionLeasing.Affine.Frame
import ConnectionLeasing.Affine.Operation
import ConnectionLeasing.Affine.State
import ConnectionLeasing.Affine.Sweep
import ConnectionLeasing.Channel
import ConnectionLeasing.Chronicle
import ConnectionLeasing.Context
import ConnectionLeasing.Error
import ConnectionLeasing.Exposition
import ConnectionLeasing.Factory
import ConnectionLeasing.Health
import ConnectionLeasing.Identity
import ConnectionLeasing.Journal
import ConnectionLeasing.Keyed
import ConnectionLeasing.Ledger
import ConnectionLeasing.Number.Binary64
import ConnectionLeasing.Number.Decimal
import ConnectionLeasing.Observer
import ConnectionLeasing.Pool.Basic
import ConnectionLeasing.Pool.Operation
import ConnectionLeasing.Pooled.Frame
import ConnectionLeasing.Pooled.Operation
import ConnectionLeasing.Pooled.State
import ConnectionLeasing.Registry
import ConnectionLeasing.Retention
import ConnectionLeasing.Scenario.Action
import ConnectionLeasing.Scenario.Backend
import ConnectionLeasing.Scenario.ContextSession
import ConnectionLeasing.Scenario.Outside
import ConnectionLeasing.Scenario.Perform
import ConnectionLeasing.Scenario.Transcript
import ConnectionLeasing.Scenario.View
import ConnectionLeasing.Scenario.World
import ConnectionLeasing.Schedule
import ConnectionLeasing.Settings
import ConnectionLeasing.Slot
import ConnectionLeasing.Text.Json
import ConnectionLeasing.Text.Printable
import ConnectionLeasing.Text.Quoted
import ConnectionLeasing.Text.Record
import ConnectionLeasing.Time
import ConnectionLeasing.Waiting
import ConnectionLeasing.Proofs.Keyed
import ConnectionLeasing.Proofs.Contexts
import ConnectionLeasing.Proofs.Registry
import ConnectionLeasing.Proofs.Affine.Change
import ConnectionLeasing.Proofs.Affine.Run
import ConnectionLeasing.Proofs.Affine.Sound
import ConnectionLeasing.Proofs.Affine.Outcome
import ConnectionLeasing.Proofs.Affine.Borrowing
import ConnectionLeasing.Proofs.Affine.Sweeping
import ConnectionLeasing.Proofs.Affine.Operating
import ConnectionLeasing.Proofs.Affine.Passage
import ConnectionLeasing.Proofs.Affine.Limit
import ConnectionLeasing.Proofs.Affine.Lease
import ConnectionLeasing.Proofs.Affine.Anchor
import ConnectionLeasing.Proofs.Affine.Clearing
import ConnectionLeasing.Proofs.Affine.Leak
import ConnectionLeasing.Proofs.Affine.Opening
import ConnectionLeasing.Proofs.Affine.Stranding
import ConnectionLeasing.Proofs.Pool.Custody
import ConnectionLeasing.Proofs.Pool.Accounting
import ConnectionLeasing.Proofs.Pool.Ownership
import ConnectionLeasing.Proofs.Pool.Closing
import ConnectionLeasing.Proofs.Affine.Walk
import ConnectionLeasing.Proofs.Affine.Displacing
import ConnectionLeasing.Proofs.Pool.Draining
import ConnectionLeasing.Proofs.Life
import ConnectionLeasing.Proofs.Affine.Lifetime
import ConnectionLeasing.Proofs.Pooled.Run
import ConnectionLeasing.Proofs.Pooled.Custody
import ConnectionLeasing.Proofs.LifeCycle
import ConnectionLeasing.Proofs.Affine.Tally
import ConnectionLeasing.Proofs.Affine.Audit
import ConnectionLeasing.Proofs.Affine.Ending
import ConnectionLeasing.Proofs.Pooled.Change
import ConnectionLeasing.Proofs.Pooled.Outcome
import ConnectionLeasing.Proofs.Pooled.Passage
import ConnectionLeasing.Proofs.Origin
import ConnectionLeasing.Proofs.Affine.Suiting
import ConnectionLeasing.Proofs.Isolation
import ConnectionLeasing.Proofs.Pooled.Mirroring
import ConnectionLeasing.Proofs.Pooled.Generations
import ConnectionLeasing.Proofs.Affine.Timely
import ConnectionLeasing.Proofs.Affine.Covering
import ConnectionLeasing.Proofs.Affine.Observing
import ConnectionLeasing.Proofs.Affine.Inspection
import ConnectionLeasing.Proofs.Chronicle
import ConnectionLeasing.Proofs.Timetable
import ConnectionLeasing.Proofs.Timeline
import ConnectionLeasing.Proofs.Pooled.Growing
import ConnectionLeasing.Proofs.Audience
import ConnectionLeasing.Proofs.Scenario.Following
import ConnectionLeasing.Proofs.Scenario.Showing
import ConnectionLeasing.Proofs.Scenario.Timekeeping
import ConnectionLeasing.Proofs.Scenario.Performing
import ConnectionLeasing.Proofs.Scenario.Ticking
import ConnectionLeasing.Proofs.Waiting
import ConnectionLeasing.Proofs.Pool.Episode
import ConnectionLeasing.Proofs.Pool.Effort
import ConnectionLeasing.Proofs.Pool.Prospect
import ConnectionLeasing.Proofs.Pool.Blocking
import ConnectionLeasing.Proofs.Pool.Polling
import ConnectionLeasing.Proofs.Pool.Hiding
import ConnectionLeasing.Proofs.Pool.Alone
import ConnectionLeasing.Proofs.Pool.Stale
import ConnectionLeasing.Proofs.Pool.Evicting
import ConnectionLeasing.Proofs.Pool.Seniority
import ConnectionLeasing.Proofs.Affine.Undisturbed
import ConnectionLeasing.Proofs.Affine.Answering
import ConnectionLeasing.Proofs.Affine.Exchanges
import ConnectionLeasing.Proofs.Affine.Due
import ConnectionLeasing.Proofs.Affine.Culling
import ConnectionLeasing.Proofs.Affine.Purging
import ConnectionLeasing.Proofs.Affine.Forgetting
import ConnectionLeasing.Proofs.Affine.Trimming
import ConnectionLeasing.Proofs.Affine.Checking
import ConnectionLeasing.Proofs.Utilization
import ConnectionLeasing.Proofs.Capacity
import ConnectionLeasing.Proofs.Affine.Reporting
import ConnectionLeasing.Proofs.Affine.Holding
import ConnectionLeasing.Proofs.Affine.Serving
import ConnectionLeasing.Proofs.Affine.Priority
import ConnectionLeasing.Proofs.Affine.Refusing
import ConnectionLeasing.Proofs.Affine.GivingBack
import ConnectionLeasing.Proofs.Affine.Expiry
import ConnectionLeasing.Proofs.Affine.Renumbering
import ConnectionLeasing.Proofs.Affine.Independence
import ConnectionLeasing.Proofs.Renaming
import ConnectionLeasing.Proofs.Affine.Renaming
import ConnectionLeasing.Proofs.Pooled.Renaming
import ConnectionLeasing.Proofs.Inputs
import ConnectionLeasing.Proofs.Affine.Playing
import ConnectionLeasing.Proofs.Pooled.Playing
import ConnectionLeasing.Proofs.Passwords

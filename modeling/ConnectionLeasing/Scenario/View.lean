import ConnectionLeasing.Ledger
import ConnectionLeasing.Pooled.State
import ConnectionLeasing.Schedule

/-!
# What is shown of things

The visible state of every kind of thing, with moments in milliseconds and lists sorted. Slots are
shown in full or only counted.
-/

namespace ConnectionLeasing.Scenario

structure SlotView where
  owner : ContextId
  borrowed : Bool
  isOpen : Bool
  handle : Option Nat
  borrowTime : Nat
  releaseTime : Nat
  deriving DecidableEq

def SlotView.ofSlot (s : Slot) : SlotView where
  owner := s.owner
  borrowed := s.borrowed
  isOpen := s.isOpen
  handle := s.handle.map (·.number)
  borrowTime := momentMillis s.borrowTime
  releaseTime := momentMillis s.releaseTime

/-- The slots of an identity. -/
inductive SlotsView
  | full (slots : List (ContextId × SlotView))
  | counted (slots borrowed : Nat)
  deriving DecidableEq

structure EntryView where
  identity : Identity
  pending : Nat
  slots : SlotsView
  deriving DecidableEq

structure MonitorView where
  enabled : Bool
  periodMillis : Nat
  observers : Nat
  deriving DecidableEq

inductive TargetView
  | registry (entries : List EntryView)
  | directory (pools : List PoolStatistics)
  deriving DecidableEq

inductive ThingView
  | basic (monitor : MonitorView) (registry : List EntryView) (metrics : Metrics)
  | pooled (monitor : MonitorView) (pools : List PoolStatistics)
  | pool (idle total active max created destroyed : Nat) (closed : Bool)
  | monitor (monitor : MonitorView) (target : TargetView)
  | factory (supported : List Bool)
  deriving DecidableEq

/-- Sorts by a key. -/
def sortedBy {α κ : Type} [Ord κ] (key : α → κ) (list : List α) : List α :=
  list.mergeSort fun a b => (compare (key a) (key b)).isLE

/-- The slots of an entry by context, as the table has them. -/
def slotViews (slots : List Slot) (e : Entry) : List (ContextId × SlotView) :=
  sortedBy (·.1) (e.slots.filterMap fun k => slots[k.2]?.map fun s => (k.1, SlotView.ofSlot s))

/-- The entries of a registry by identity. -/
def entryViews (countOnly : Bool) (slots : List Slot) (r : Registry) : List EntryView :=
  (sortedBy (·.1) r.known).map fun k =>
    let e := r.entry k.2
    let views := slotViews slots e
    { identity := k.1
      pending := e.pending
      slots :=
        if countOnly then .counted views.length (views.countP (·.2.borrowed)) else .full views }

def poolView (p : Pool Handle) : ThingView :=
  .pool p.idle.length p.total p.active p.settings.maxSize p.created p.destroyed p.closed

def monitorView (s : Schedule) (observers : List Observer) : MonitorView :=
  ⟨s.enabled, s.period.millis, observers.length⟩

end ConnectionLeasing.Scenario

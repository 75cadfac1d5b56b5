import ConnectionLeasing.Ledger
import ConnectionLeasing.Number.Decimal

/-!
# Exposition text

Metrics in the line format that scrapers read: families sorted by name, each with its help line,
its type line and one sample. The constant labels are the manager's name under `manager` and any
further tags, which may replace it; they are sorted by their text.
-/

namespace ConnectionLeasing.Exposition

inductive Kind
  | counter
  | gauge

def Kind.name : Kind → String
  | counter => "counter"
  | gauge => "gauge"

structure Family where
  name : String
  help : String
  kind : Kind
  value : Nat

/-- The number a sample shows: a gauge is read as a signed machine word. -/
def Family.number (f : Family) : Int :=
  match f.kind with
  | .counter => f.value
  | .gauge => (Int64.ofNat f.value).toInt

/-- The families made from the metrics of a manager. -/
def families (m : Metrics) : List Family :=
  [⟨"connections_identities", "Identities currently known", .gauge, m.identities⟩,
    ⟨"connections_open", "Connections currently registered", .gauge, m.openConnections⟩,
    ⟨"connections_borrowed", "Connections currently borrowed", .gauge, m.borrowedConnections⟩,
    ⟨"connections_borrowed_total", "Successful borrows", .counter, m.borrowed⟩,
    ⟨"connections_reused_total", "Borrows served by the caller's idle slot", .counter, m.reused⟩,
    ⟨"connections_stolen_total", "Borrows served by another context's idle slot", .counter,
      m.stolen⟩,
    ⟨"connections_created_total", "Connections opened", .counter, m.created⟩,
    ⟨"connections_released_total", "Explicit releases", .counter, m.released⟩,
    ⟨"connections_closed_total", "Explicit closes", .counter, m.closed⟩,
    ⟨"connections_evicted_released_total", "Slots released by the borrow timeout", .counter,
      m.evictedReleased⟩,
    ⟨"connections_evicted_closed_total", "Slots closed by eviction", .counter, m.evictedClosed⟩,
    ⟨"connections_over_limit_total", "Borrows rejected at the connection limit", .counter,
      m.overLimit⟩,
    ⟨"connections_disconnect_failures_total", "Failed disconnects", .counter, m.disconnectFailures⟩]

/-- A character of a label value: the quote, the backslash and the line break are escaped. -/
def labelChar (c : Char) : String :=
  match c with
  | '"' => "\\\""
  | '\\' => "\\\\"
  | '\n' => "\\n"
  | c => c.toString

def label (name value : String) : String :=
  name ++ "=\"" ++ String.join (value.toList.map labelChar) ++ "\""

/-- The labels of every sample, sorted by their text. -/
def labels (manager : String) (tags : List (String × String)) : String :=
  let all := tags.foldl (fun m t => Keyed.put m t.1 t.2) [("manager", manager)]
  ",".intercalate ((all.map fun l => label l.1 l.2).mergeSort fun a b => decide (a ≤ b))

def Family.text (f : Family) (labels : String) : String :=
  s!"# HELP {f.name} {f.help}\n# TYPE {f.name} {f.kind.name}\n{f.name}" ++
    "\x7b" ++ labels ++ "\x7d " ++ Number.decimalText f.number ++ "\n"

/-- The whole text for a manager of the given name. -/
def text (m : Metrics) (manager : String) (tags : List (String × String)) : String :=
  let labels := labels manager tags
  let sorted := (families m).mergeSort fun a b => decide (a.name ≤ b.name)
  String.join (sorted.map (·.text labels))

end ConnectionLeasing.Exposition

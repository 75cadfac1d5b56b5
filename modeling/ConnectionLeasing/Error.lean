import ConnectionLeasing.Channel
import ConnectionLeasing.Context
import ConnectionLeasing.Identity
import ConnectionLeasing.Time

/-!
# Why a connection is refused

The causes for which a borrow, a connect or a disconnect fails, with the text shown to a user and
the text shown to a developer. Every text goes through the texts of identities, so none depends on
a password.
-/

namespace ConnectionLeasing

inductive LeaseError
  | limitExceeded (identity : Identity) (context : ContextId) (current max : Nat)
  | alreadyBorrowed (identity : Identity) (context : ContextId)
  | unsupported (channel : Channel)
  | connectFailure (identity : Identity) (reason : String)
  | disconnectFailure (reason : String)
  | timeout (after : Duration)
  | poolClosed (pool : String)
  | internal (detail : String)
  deriving DecidableEq, Inhabited

namespace LeaseError

/-- The name of the cause. -/
def cause : LeaseError → String
  | limitExceeded .. => "ConnectionLimitExceeded"
  | alreadyBorrowed .. => "AlreadyBorrowed"
  | unsupported .. => "UnsupportedProtocol"
  | connectFailure .. => "ConnectFailure"
  | disconnectFailure .. => "DisconnectFailure"
  | timeout .. => "Timeout"
  | poolClosed .. => "PoolClosed"
  | internal .. => "Internal"

/-- The text for a user. -/
def message : LeaseError → String
  | limitExceeded i c current max =>
    s!"Too many connections for {i.display} (context {c.display}): " ++
      s!"{current} registered, limit is {max}"
  | alreadyBorrowed i c =>
    s!"The connection for {i.display} is already borrowed by context {c.display}"
  | unsupported channel => s!"Connection kind {channel.name} is not supported"
  | connectFailure i reason => s!"Failed to connect to {i.display}: {reason}"
  | disconnectFailure reason => s!"Failed to disconnect: {reason}"
  | timeout after => s!"Timed out after {after.text} waiting for a pooled connection"
  | poolClosed pool => s!"The connection pool {pool} is closed"
  | internal detail => s!"Internal error: {detail}"

/-- The text for a developer: the cause with its fields. -/
def debug (e : LeaseError) : String :=
  match e with
  | limitExceeded i c current max =>
    Text.record e.cause [("identity", i.debug), ("context", c.debug),
      ("current", toString current), ("max", toString max)]
  | alreadyBorrowed i c => Text.record e.cause [("identity", i.debug), ("context", c.debug)]
  | unsupported channel => Text.tagged e.cause channel.debug
  | connectFailure i reason =>
    Text.record e.cause [("identity", i.debug), ("reason", Text.quoted reason)]
  | disconnectFailure reason => Text.tagged e.cause (Text.quoted reason)
  | timeout after => Text.tagged e.cause after.text
  | poolClosed pool => Text.tagged e.cause (Text.quoted pool)
  | internal detail => Text.tagged e.cause (Text.quoted detail)

/-- The same cause for another identity, where the cause names one. -/
def about (i : Identity) : LeaseError → LeaseError
  | limitExceeded _ c current max => limitExceeded i c current max
  | alreadyBorrowed _ c => alreadyBorrowed i c
  | connectFailure _ reason => connectFailure i reason
  | e => e

end LeaseError

end ConnectionLeasing

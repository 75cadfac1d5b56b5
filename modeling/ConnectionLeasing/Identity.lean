import ConnectionLeasing.Text.Quoted
import ConnectionLeasing.Text.Record

/-!
# Identities

One remote endpoint together with the credentials used on it. Two identities are equal only if all
four fields are, so the same account under another password is another identity; yet no text made
here shows the password.

* `display_congr`, `debug_congr`: identities that differ in the password only have the same texts.
-/

namespace ConnectionLeasing

structure Identity where
  host : String
  port : Nat
  username : String
  password : String
  deriving DecidableEq, Inhabited, Ord

namespace Identity

/-- The short text, `user@host:port`. -/
def display (i : Identity) : String := s!"{i.username}@{i.host}:{i.port}"

/-- The long text, which hides the password. -/
def debug (i : Identity) : String :=
  Text.record "ConnectionIdentity" [("host", Text.quoted i.host), ("port", toString i.port),
    ("username", Text.quoted i.username), ("password", Text.quoted "***")]

theorem display_congr (i : Identity) (password : String) :
    ({ i with password } : Identity).display = i.display := rfl

theorem debug_congr (i : Identity) (password : String) :
    ({ i with password } : Identity).debug = i.debug := rfl

end Identity

end ConnectionLeasing

import ConnectionLeasing.Text.Json

/-!
# Channels

The closed set of channel kinds a connection can carry.
-/

namespace ConnectionLeasing

/-- What a connection is opened for. -/
inductive Channel
  | sftp
  | shell
  deriving DecidableEq, Inhabited, Ord

namespace Channel

/-- Every channel, in declaration order. -/
def all : List Channel := [sftp, shell]

theorem mem_all (c : Channel) : c ∈ all := by cases c <;> simp [all]

def name : Channel → String
  | sftp => "sftp"
  | shell => "shell"

def debug : Channel → String
  | sftp => "Sftp"
  | shell => "Shell"

def json (c : Channel) : String := Text.Json.string c.name

end Channel

end ConnectionLeasing

import ConnectionLeasing.Channel
import ConnectionLeasing.Keyed

/-!
# Handles and the factory that makes them

A handle is one connection, known by its number; it carries a channel, which need not be the one
its constructor was registered for. A factory knows which channels have a constructor and what the
constructed handles carry.
-/

namespace ConnectionLeasing

/-- One connection, open or not. -/
structure Handle where
  number : Nat
  channel : Channel
  deriving DecidableEq, Inhabited

/-- Registered constructors: the channel asked for, and the channel of the handles built for it. -/
structure Factory where
  constructors : List (Channel × Channel)
  deriving DecidableEq, Inhabited

namespace Factory

def empty : Factory := ⟨[]⟩

/-- Registers a constructor, in place of an earlier one for the same channel. -/
def register (f : Factory) (channel produces : Channel) : Factory :=
  ⟨Keyed.put f.constructors channel produces⟩

def ofList (pairs : List (Channel × Channel)) : Factory :=
  pairs.foldl (fun f p => f.register p.1 p.2) empty

/-- Every channel built as itself. -/
def faithful : Factory := ofList (Channel.all.map fun c => (c, c))

/-- What the constructor for a channel builds, if there is one. -/
def produces? (f : Factory) (channel : Channel) : Option Channel :=
  Keyed.get? f.constructors channel

def supports (f : Factory) (channel : Channel) : Bool := (f.produces? channel).isSome

end Factory

end ConnectionLeasing

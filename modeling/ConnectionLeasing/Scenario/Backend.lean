import ConnectionLeasing.Observer

/-!
# Simulated connections

A backend whose connections do as they are told. A connection starts unconnected, valid and not
forced closed; it counts as valid while it is also connected, and as closed once it is forced closed
or not connected. Connecting and disconnecting fail while a fault is set.
-/

namespace ConnectionLeasing.Scenario

/-- An error to fail to connect with. One that names no identity is about the identity that is being
connected. -/
structure Fault where
  error : LeaseError
  /-- Whether the identity is the one being connected. -/
  ownIdentity : Bool

def Fault.strike (f : Fault) (i : Identity) : LeaseError :=
  if f.ownIdentity then f.error.about i else f.error

structure Connection where
  channel : Channel
  connected : Bool := false
  valid : Bool := true
  forcedClosed : Bool := false
  /-- How often it was asked to disconnect. -/
  disconnects : Nat := 0
  deriving Inhabited

namespace Connection

def isValid (c : Connection) : Bool := c.valid && c.connected

def isClosed (c : Connection) : Bool := c.forcedClosed || !c.connected

def isUsable (c : Connection) : Bool := c.isValid && !c.isClosed

end Connection

structure Backend where
  /-- Every connection ever built, by number. -/
  connections : List Connection := []
  connectFault : Option Fault := none
  disconnectFault : Option LeaseError := none

namespace Backend

/-- Builds a connection. -/
def construct (b : Backend) (channel : Channel) : Backend × Handle :=
  ({ b with connections := b.connections ++ [{ channel }] }, ⟨b.connections.length, channel⟩)

def connection (b : Backend) (number : Nat) : Connection := b.connections[number]?.getD default

def map (b : Backend) (number : Nat) (f : Connection → Connection) : Backend :=
  { b with connections := b.connections.modify number f }

/-- Finishes a connect: it fails while a connect fault is set. -/
def connect (b : Backend) (number : Nat) (i : Identity) : Backend × Option LeaseError :=
  match b.connectFault with
  | some f => (b, some (f.strike i))
  | none => (b.map number fun c => { c with connected := true }, none)

/-- Starts a disconnect. -/
def beginDisconnect (b : Backend) (number : Nat) : Backend :=
  b.map number fun c => { c with connected := false, disconnects := c.disconnects + 1 }

end Backend

end ConnectionLeasing.Scenario

import ConnectionLeasing.Affine.Operation

/-!
# Operations on handles that behave in a known way

An operation that nothing comes between, at one moment, with handles whose behaviour is fixed: a
check, a connect and a disconnect are answered by the handle they are made on, always in the same
way. Handles are numbered in the order in which they are built.

* `Step.Performs`: how such an operation runs, with the calls it makes.
* `Step.Performs.unique`: it runs in one way only.
-/

namespace ConnectionLeasing

/-- How handles answer the calls made on them. -/
structure Behaviour where
  /-- Whether a handle is valid and not closed. -/
  usable : Handle → Bool
  /-- Why a handle does not connect, if so. -/
  refusal? : Handle → Identity → Duration → Option LeaseError
  /-- What a handle reports of its disconnect, if that fails. -/
  complaint? : Handle → Option LeaseError

/-- Everything works. -/
def Behaviour.smooth : Behaviour := ⟨fun _ => true, fun _ _ _ => none, fun _ => none⟩

/-- The answer to a call, with `n` as the number of the next handle. -/
def Behaviour.answer (b : Behaviour) (n : Nat) : (call : Call) → call.Answer
  | .visit .. => ()
  | .tick _ => ()
  | .check h => b.usable h
  | .connect channel i timeout => ⟨⟨n, channel⟩, b.refusal? ⟨n, channel⟩ i timeout⟩
  | .disconnect h => b.complaint? h

namespace Call

/-- Whether the call builds a handle. -/
def builds : Call → Bool
  | connect .. => true
  | _ => false

/-- The handle that is asked to disconnect. -/
def disconnected? : Call → Option Handle
  | disconnect h => some h
  | _ => none

/-- The number of the next handle after some calls. -/
def next (n : Nat) (calls : List Call) : Nat := n + calls.countP builds

end Call

namespace Affine

/-- With `n` as the number of the next handle, a step makes these calls, leaves this state and ends
with this result. -/
inductive Step.Performs (b : Behaviour) (now : Nat) : Nat → Step → List Call → State → Result → Prop
  | done (n : Nat) (s : State) (r : Result) : Step.Performs b now n (s, .done r) [] s r
  | paused {n : Nat} {s s' : State} {f : Frame} {calls : List Call} {r : Result}
    (h : Step.Performs b now (Call.next n [f.call]) (resume s now f (b.answer n f.call)) calls s' r) :
    Step.Performs b now n (s, .paused f) (f.call :: calls) s' r

theorem Step.Performs.unique {b : Behaviour} {now n : Nat} {step : Step} {calls calls' : List Call}
    {s s' : State} {r r' : Result} (h : step.Performs b now n calls s r)
    (h' : step.Performs b now n calls' s' r') : calls' = calls ∧ s' = s ∧ r' = r := by
  induction h generalizing calls' with
  | done =>
    cases h'
    exact ⟨rfl, rfl, rfl⟩
  | paused _ ih =>
    cases h' with
    | paused h' =>
      obtain ⟨rfl, hs, hr⟩ := ih h'
      exact ⟨rfl, hs, hr⟩

end Affine

end ConnectionLeasing

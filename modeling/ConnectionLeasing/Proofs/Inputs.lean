import ConnectionLeasing.Proofs.Affine.Run
import ConnectionLeasing.Proofs.Renaming
import Mathlib.Data.List.InsertIdx

/-!
# What a run is given

A run is determined by what it is given from outside: the operations that start, the replies to
their calls, the failures of observers, the observers attached, the passing of time, and the orders
in which maps are enumerated. Inputs name operations in progress by their position, so they can be
given to any run, and whatever they say of identities can be renamed.

* `Call.exists_reply`: every answer to a call is a reply.
* `Input.rename_congr`: a renaming matters only for the identities of an input.
-/

namespace ConnectionLeasing

variable {π ρ : Renaming}

/-! ### Replies -/

/-- What some call is answered with. -/
inductive Reply
  | told
  | checked (usable : Bool)
  | connected (c : Connected)
  | disconnected (failure : Option LeaseError)

namespace Reply

/-- The answer to a call, if the reply is one. -/
def answer? : Reply → (call : Call) → Option call.Answer
  | told, .visit .. => some ()
  | told, .tick _ => some ()
  | checked usable, .check _ => some usable
  | connected c, .connect .. => some c
  | disconnected failure, .disconnect _ => some failure
  | _, _ => none

def rename (π : Renaming) : Reply → Reply
  | connected c => connected (c.rename π)
  | disconnected failure => disconnected (failure.map (·.rename π))
  | reply => reply

end Reply

theorem Call.exists_reply (call : Call) (a : call.Answer) :
    ∃ reply : Reply, reply.answer? call = some a := by
  cases call with
  | visit | tick => exact ⟨.told, rfl⟩
  | check h => exact ⟨.checked a, rfl⟩
  | connect channel i timeout => exact ⟨.connected a, rfl⟩
  | disconnect h => exact ⟨.disconnected a, rfl⟩

/-! ### Inputs -/

/-- One thing that a run is given, with `κ` as what can be asked of the manager. -/
inductive Input (κ : Type)
  | start (k : κ)
  /-- An operation in progress gets a reply to its call. -/
  | reply (position : Nat) (r : Reply)
  /-- An operation in progress ends because the observer it is telling fails. -/
  | fail (position : Nat)
  | attach (o : Observer)
  | pass (now : Nat)
  /-- The identities are enumerated in another order from now on. -/
  | enumerate (order : List Nat)
  /-- The slots of an entry are enumerated in another order from now on. -/
  | enumerateSlots (entry : Nat) (order : List Nat)

/-- A list in the order of the given positions, if these are the positions of its members. -/
def arranged? {α : Type} (order : List Nat) (l : List α) : Option (List α) :=
  if order.isPerm (List.range l.length) then some (order.filterMap (l[·]?)) else none

theorem arranged?_map {α β : Type} (f : α → β) (order : List Nat) (l : List α) :
    arranged? order (l.map f) = (arranged? order l).map (List.map f) := by
  rw [arranged?, arranged?, List.length_map, apply_ite (Option.map _), Option.map_some,
    List.map_filterMap, Option.map_none]
  simp only [List.getElem?_map]

theorem foldlM_hom {W ι : Type} {f : W → ι → Option W} {g : W → W} {h : ι → ι}
    (hf : ∀ w x, f (g w) (h x) = (f w x).map g) (l : List ι) (w : W) :
    (l.map h).foldlM f (g w) = (l.foldlM f w).map g := by
  induction l generalizing w with
  | nil => rfl
  | cons x l ih =>
    rw [List.map_cons, List.foldlM_cons, List.foldlM_cons, hf]
    cases f w x with
    | none => rfl
    | some v => exact ih v

theorem foldlM_concat {W ι : Type} {f : W → ι → Option W} {l : List ι} {x : ι} {w v u : W}
    (hl : l.foldlM f w = some v) (hx : f v x = some u) : (l ++ [x]).foldlM f w = some u := by
  rw [List.foldlM_append, hl]
  show ([x].foldlM f v : Option W) = some u
  rw [List.foldlM_cons, hx]
  rfl

/-! ### Positions -/

theorem getElem?_length_append {α : Type} (before : List α) (x : α) (later : List α) :
    (before ++ x :: later)[before.length]? = some x := by
  rw [List.getElem?_append_right (Nat.le_refl _), Nat.sub_self]
  rfl

theorem eraseIdx_length_append {α : Type} (before : List α) (x : α) (later : List α) :
    (before ++ x :: later).eraseIdx before.length = before ++ later := by
  rw [List.eraseIdx_append_of_length_le (Nat.le_refl _), Nat.sub_self]
  rfl

/-! ### The identities of inputs -/

def LeaseError.identities : LeaseError → List Identity
  | limitExceeded i .. | alreadyBorrowed i _ | connectFailure i _ => [i]
  | _ => []

def Reply.identities : Reply → List Identity
  | connected c => c.failure.toList.flatMap (·.identities)
  | disconnected failure => failure.toList.flatMap (·.identities)
  | _ => []

theorem LeaseError.rename_congr {e : LeaseError}
    (h : ∀ i ∈ e.identities, i.rename ρ = i.rename π) : e.rename ρ = e.rename π := by
  cases e with
  | limitExceeded i c current max => exact congrArg (limitExceeded · c current max) (h i (.head _))
  | alreadyBorrowed i c => exact congrArg (alreadyBorrowed · c) (h i (.head _))
  | connectFailure i reason => exact congrArg (connectFailure · reason) (h i (.head _))
  | _ => rfl

theorem LeaseError.map_rename_congr {failure : Option LeaseError}
    (h : ∀ i ∈ failure.toList.flatMap (·.identities), i.rename ρ = i.rename π) :
    failure.map (·.rename ρ) = failure.map (·.rename π) := by
  cases failure with
  | none => rfl
  | some e => exact congrArg some (LeaseError.rename_congr fun i hi => h i (by simpa using hi))

theorem Reply.rename_congr {r : Reply} (h : ∀ i ∈ r.identities, i.rename ρ = i.rename π) :
    r.rename ρ = r.rename π := by
  cases r with
  | connected c =>
    exact congrArg (fun failure => connected { c with failure }) (LeaseError.map_rename_congr h)
  | disconnected failure => exact congrArg disconnected (LeaseError.map_rename_congr h)
  | _ => rfl

namespace Input

variable {κ : Type}

/-- The input under other passwords, with `f` as the renaming of what can be asked. -/
def rename (π : Renaming) (f : κ → κ) : Input κ → Input κ
  | start k => start (f k)
  | reply position r => reply position (r.rename π)
  | fail position => fail position
  | attach o => attach o
  | pass now => pass now
  | enumerate order => enumerate order
  | enumerateSlots entry order => enumerateSlots entry order

/-- The identities of an input, with `f` as those of what can be asked. -/
def identities (f : κ → List Identity) : Input κ → List Identity
  | start k => f k
  | reply _ r => r.identities
  | _ => []

theorem rename_congr {f g : κ → κ} {ids : κ → List Identity}
    (hk : ∀ k, (∀ i ∈ ids k, i.rename ρ = i.rename π) → f k = g k) {x : Input κ}
    (h : ∀ i ∈ x.identities ids, i.rename ρ = i.rename π) : x.rename ρ f = x.rename π g := by
  cases x with
  | start k => exact congrArg start (hk k h)
  | reply position r => exact congrArg (reply position) (Reply.rename_congr h)
  | _ => rfl

theorem map_rename_congr {f g : κ → κ} {ids : κ → List Identity}
    (hk : ∀ k, (∀ i ∈ ids k, i.rename ρ = i.rename π) → f k = g k) {inputs : List (Input κ)}
    (h : ∀ i ∈ inputs.flatMap (·.identities ids), i.rename ρ = i.rename π) :
    inputs.map (·.rename ρ f) = inputs.map (·.rename π g) :=
  List.map_congr_left fun x hx => rename_congr hk fun i hi => h i (List.mem_flatMap.mpr ⟨x, hx, hi⟩)

end Input

end ConnectionLeasing

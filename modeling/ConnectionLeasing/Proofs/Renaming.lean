import ConnectionLeasing.Journal
import ConnectionLeasing.Proofs.Keyed
import ConnectionLeasing.Registry
import Mathlib.Data.List.Basic

/-!
# Other passwords

A renaming gives every identity a new password. Whatever names identities is renamed along with
them, and no text changes by that: neither that of an identity nor that of an error or of a line of
the journal. As long as different identities stay different, a registry under other passwords is
read and written as before.

* `Identity.texts_rename`, `LeaseError.texts_rename`, `Notice.line_rename`: texts under other
  passwords.
* `Registry.entryId?_rename`, `Registry.reserve_rename`, `Registry.statistics_rename`: registries
  under other passwords.
* `Renaming.Separates.exists_extends`: a renaming matters only where it is used.
-/

namespace ConnectionLeasing

/-- The new password of each identity. -/
abbrev Renaming := Identity → String

variable {π : Renaming}

/-- The identity with its new password. -/
def Identity.rename (π : Renaming) (i : Identity) : Identity := { i with password := π i }

/-! ### Texts -/

/-- The short text and the long text. -/
def Identity.texts (i : Identity) : String × String := (i.display, i.debug)

theorem Identity.texts_rename (i : Identity) : (i.rename π).texts = i.texts := rfl

namespace LeaseError

def rename (π : Renaming) : LeaseError → LeaseError
  | limitExceeded i c current max => limitExceeded (i.rename π) c current max
  | alreadyBorrowed i c => alreadyBorrowed (i.rename π) c
  | connectFailure i reason => connectFailure (i.rename π) reason
  | e => e

theorem message_rename (e : LeaseError) : (e.rename π).message = e.message := by
  cases e <;> rfl

theorem debug_rename (e : LeaseError) : (e.rename π).debug = e.debug := by
  cases e <;> rfl

/-- The text for a user and the text for a developer. -/
def texts (e : LeaseError) : String × String := (e.message, e.debug)

theorem texts_rename (e : LeaseError) : (e.rename π).texts = e.texts := by
  rw [texts, message_rename, debug_rename]
  rfl

theorem map_texts_flatMap {α : Type} {f : α → α} {errors : α → List LeaseError}
    (h : ∀ x, errors (f x) = (errors x).map (·.rename π)) (l : List α) :
    ((l.map f).flatMap errors).map texts = (l.flatMap errors).map texts := by
  rw [List.flatMap_map, List.map_flatMap, List.map_flatMap]
  refine List.flatMap_congr fun x _ => ?_
  rw [h, List.map_map]
  exact List.map_congr_left fun e _ => e.texts_rename

end LeaseError

def Announcement.rename (π : Renaming) (a : Announcement) : Announcement :=
  { a with identity := a.identity.rename π }

namespace Notice

def rename (π : Renaming) : Notice → Notice
  | ownUnusable i c => ownUnusable (i.rename π) c
  | ownOfAnotherKind i c k => ownOfAnotherKind (i.rename π) c k
  | reused i c => reused (i.rename π) c
  | tookOver i a b => tookOver (i.rename π) a b
  | registered i c k => registered (i.rename π) c k
  | tooMany i c current max => tooMany (i.rename π) c current max
  | opened i k => opened (i.rename π) k
  | nothingToRelease i c => nothingToRelease (i.rename π) c
  | released i c => released (i.rename π) c
  | nothingToClose i c => nothingToClose (i.rename π) c
  | disconnectFailed i c e => disconnectFailed (i.rename π) c (e.rename π)
  | removed i c => removed (i.rename π) c
  | borrowTimedOut i c => borrowTimedOut (i.rename π) c
  | idleTimedOut i c => idleTimedOut (i.rename π) c
  | inspected i c v => inspected (i.rename π) c v
  | swept i r remaining => swept (i.rename π) r remaining
  | forgot i => forgot (i.rename π)
  | poolDisconnectFailed i k e => poolDisconnectFailed (i.rename π) k (e.rename π)
  | createdPool i k => createdPool (i.rename π) k
  | releasedByDropping i c => releasedByDropping (i.rename π) c
  | closedPools i c n => closedPools (i.rename π) c n
  | managerCall a => managerCall (a.rename π)
  | poolState i s => poolState (i.rename π) s
  | n => n

/-- **No line of the journal shows a password.** -/
theorem line_rename (n : Notice) : (n.rename π).line = n.line := by
  cases n with
  | disconnectFailed i c e =>
    show JournalLine.mk _ _ [_, _, (_, (e.rename π).message)] = _
    rw [e.message_rename]
    rfl
  | poolDisconnectFailed i k e =>
    show JournalLine.mk _ _ [_, _, (_, (e.rename π).message)] = _
    rw [e.message_rename]
    rfl
  | _ => rfl

end Notice

def Journal.rename (π : Renaming) (j : Journal) : Journal := j.map (·.rename π)

@[simp] theorem Journal.rename_push (j : Journal) (n : Notice) :
    Journal.rename π (j.push n) = (Journal.rename π j).push (n.rename π) :=
  Array.map_push

/-- The lines of a journal. -/
def Journal.lines (j : Journal) : List JournalLine := j.toList.map (·.line)

theorem Journal.lines_rename (j : Journal) :
    Journal.lines (Journal.rename π j) = Journal.lines j := by
  rw [lines, lines, rename, Array.toList_map, List.map_map]
  exact List.map_congr_left fun n _ => n.line_rename

/-! ### Calls -/

def Connected.rename (π : Renaming) (c : Connected) : Connected :=
  { c with failure := c.failure.map (·.rename π) }

namespace Call

def rename (π : Renaming) : Call → Call
  | visit o a => visit o (a.rename π)
  | connect channel i timeout => connect channel (i.rename π) timeout
  | call => call

/-- The same answer under other passwords. -/
def renameAnswer (π : Renaming) : (call : Call) → call.Answer → (call.rename π).Answer
  | visit .., _ => ()
  | tick _, _ => ()
  | check _, usable => usable
  | connect .., c => c.rename π
  | disconnect _, failure => failure.map (·.rename π)

end Call

/-- The same progress with other frames and results. -/
def Progress.map {F F' R R' : Type} (f : F → F') (g : R → R') : Progress F R → Progress F' R'
  | paused frame => paused (f frame)
  | done result => done (g result)

/-! ### Registries -/

namespace Registry

def rename (π : Renaming) (r : Registry) : Registry :=
  { r with known := r.known.map (Prod.map (·.rename π) id) }

variable (r : Registry) (i : Identity)

@[simp] theorem entry_rename (e : Nat) : (r.rename π).entry e = r.entry e := rfl

@[simp] theorem size_rename : (r.rename π).size = r.size := List.length_map _

theorem reassign?_rename (e : Nat) (source target : ContextId) (slot : Nat) :
    (r.rename π).reassign? e source target slot =
      (r.reassign? e source target slot).map (Prod.map (·.rename π) id) := by
  rw [reassign?, reassign?, apply_ite (Option.map _)]
  rfl

theorem totalSlots_rename : (r.rename π).totalSlots = r.totalSlots := by
  rw [totalSlots, totalSlots, rename, List.foldr_map]
  rfl

theorem statistics_rename (slots : List Slot) :
    (r.rename π).statistics slots = r.statistics slots := by
  rw [statistics, statistics, rename, List.map_map]
  rfl

section injective
variable (hπ : Function.Injective (Identity.rename π))
include hπ

theorem entryId?_rename : (r.rename π).entryId? (i.rename π) = r.entryId? i :=
  (Keyed.get?_map hπ id r.known i).trans Option.map_id'

theorem slot?_rename (c : ContextId) : (r.rename π).slot? (i.rename π) c = r.slot? i c := by
  rw [slot?, r.entryId?_rename i hπ]
  rfl

theorem slotCount_rename : (r.rename π).slotCount (i.rename π) = r.slotCount i := by
  rw [slotCount, entryOf, r.entryId?_rename i hπ]
  rfl

theorem isForgettable_rename (e : Nat) :
    (r.rename π).isForgettable (i.rename π) e = r.isForgettable i e := by
  rw [isForgettable, r.entryId?_rename i hπ]
  rfl

theorem forget_rename : (r.rename π).forget (i.rename π) = (r.forget i).rename π :=
  congrArg (Registry.mk · r.entries) (Keyed.erase_map hπ id r.known i)

theorem ensure_rename :
    (r.rename π).ensure (i.rename π) = ((r.ensure i).1.rename π, (r.ensure i).2) := by
  rw [ensure, ensure, r.entryId?_rename i hπ]
  cases r.entryId? i with
  | some e => rfl
  | none =>
    exact congrArg
      (fun known => ((⟨known, r.entries ++ [({} : Entry)]⟩ : Registry), r.entries.length))
      (Keyed.put_map hπ id r.known i r.entries.length)

theorem reserve_rename (max : Nat) : (r.rename π).reserve (i.rename π) max =
    ((r.reserve i max).1.rename π, (r.reserve i max).2) := by
  rw [reserve, reserve, r.ensure_rename i hπ]
  dsimp only
  rw [entry_rename]
  split <;> rfl

end injective

end Registry

/-! ### Where a renaming is used -/

/-- The identities are told apart after the renaming. -/
def Renaming.Separates (π : Renaming) (l : List Identity) : Prop :=
  ∀ i ∈ l, ∀ j ∈ l, i.rename π = j.rename π → i = j

instance (π : Renaming) (l : List Identity) : Decidable (π.Separates l) :=
  inferInstanceAs (Decidable (∀ i ∈ l, ∀ j ∈ l, i.rename π = j.rename π → i = j))

/-- One renaming does to some identities what another does, and keeps all identities apart. -/
structure Renaming.Extends (ρ π : Renaming) (l : List Identity) : Prop where
  injective : Function.Injective (Identity.rename ρ)
  agrees : ∀ i ∈ l, i.rename ρ = i.rename π

theorem Renaming.Extends.mono {ρ : Renaming} {l l' : List Identity} (h : ρ.Extends π l)
    (hl : l' ⊆ l) : ρ.Extends π l' :=
  ⟨h.injective, fun i hi => h.agrees i (hl hi)⟩

/-- **A renaming matters only where it is used.** If it keeps some identities apart, it does the
same to them as one that keeps all identities apart. -/
theorem Renaming.Separates.exists_extends {l : List Identity} (hπ : π.Separates l) :
    ∃ ρ : Renaming, ρ.Extends π l := by
  obtain ⟨n, hn⟩ : ∃ n, ∀ i ∈ l, (π i).length < n := by
    induction l with
    | nil => exact ⟨0, by simp⟩
    | cons i l ih =>
      obtain ⟨n, hn⟩ := ih fun i hi j hj =>
        hπ i (List.mem_cons_of_mem _ hi) j (List.mem_cons_of_mem _ hj)
      refine ⟨max n ((π i).length + 1), fun j hj => ?_⟩
      rcases List.mem_cons.mp hj with rfl | hj
      · omega
      · exact Nat.lt_of_lt_of_le (hn j hj) (Nat.le_max_left _ _)
  -- the passwords of all other identities are made longer than the new ones
  let long : String := .ofList (List.replicate n 'x')
  have hlong : ∀ password : String, n ≤ (long ++ password).length := fun password => by
    simp [long]
  let ρ : Renaming := fun i => if i ∈ l then π i else long ++ i.password
  have hmem : ∀ i ∈ l, i.rename ρ = i.rename π := fun i hi => by
    simp only [Identity.rename, ρ, if_pos hi]
  have hother : ∀ i, i ∉ l → i.rename ρ = { i with password := long ++ i.password } := by
    intro i hi
    simp only [Identity.rename, ρ, if_neg hi]
  have hapart : ∀ i ∈ l, ∀ j, j ∉ l → i.rename ρ ≠ j.rename ρ := fun i hi j hj heq => by
    rw [hmem i hi, hother j hj] at heq
    have hpassword : π i = long ++ j.password := congrArg Identity.password heq
    have hshort := hn i hi
    rw [hpassword] at hshort
    exact absurd (hlong j.password) (Nat.not_le.mpr hshort)
  refine ⟨ρ, fun i j heq => ?_, hmem⟩
  by_cases hi : i ∈ l
  · by_cases hj : j ∈ l
    · rw [hmem i hi, hmem j hj] at heq
      exact hπ i hi j hj heq
    · exact absurd heq (hapart i hi j hj)
  · by_cases hj : j ∈ l
    · exact absurd heq.symm (hapart j hj i hi)
    · rw [hother i hi, hother j hj] at heq
      obtain ⟨host, port, username, password⟩ := i
      obtain ⟨host', port', username', password'⟩ := j
      obtain ⟨rfl, rfl, rfl, hpassword⟩ := Identity.mk.inj heq
      obtain rfl : password = password' := (String.append_right_inj long).mp hpassword
      rfl

end ConnectionLeasing

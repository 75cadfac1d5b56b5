/-!
# Lists of pairs read as finite maps

A map keeps its keys in the order of their first insertion. `put` replaces a value in place, so an
enumeration changes only where a key comes or goes.

* `get?_put_self`, `get?_put_of_ne`: reading after writing.
* `get?_erase_self`, `get?_erase_of_ne`: reading after removing.
-/

namespace ConnectionLeasing.Keyed

variable {κ α : Type} [DecidableEq κ]

/-- The value of a key. -/
def get? : List (κ × α) → κ → Option α
  | [], _ => none
  | (k, v) :: rest, key => if k = key then some v else get? rest key

/-- Gives a key a value, in place if it has one and last otherwise. -/
def put : List (κ × α) → κ → α → List (κ × α)
  | [], key, value => [(key, value)]
  | (k, v) :: rest, key, value =>
    if k = key then (key, value) :: rest else (k, v) :: put rest key value

/-- Removes a key. -/
def erase (m : List (κ × α)) (key : κ) : List (κ × α) := m.filter fun p => p.1 ≠ key

@[simp] theorem get?_nil (key : κ) : get? ([] : List (κ × α)) key = none := rfl

@[simp] theorem get?_put_self (m : List (κ × α)) (key : κ) (value : α) :
    get? (put m key value) key = some value := by
  induction m with
  | nil => simp [put, get?]
  | cons p rest ih =>
    obtain ⟨k, v⟩ := p
    by_cases h : k = key <;> simp [put, get?, h, ih]

theorem get?_put_of_ne (m : List (κ × α)) {key other : κ} (value : α) (h : key ≠ other) :
    get? (put m key value) other = get? m other := by
  induction m with
  | nil => simp [put, get?, h]
  | cons p rest ih =>
    obtain ⟨k, v⟩ := p
    by_cases hk : k = key
    · subst hk; simp [put, get?, h]
    · by_cases ho : k = other
      · subst ho; simp [put, get?, hk]
      · simp [put, get?, hk, ho, ih]

@[simp] theorem get?_erase_self (m : List (κ × α)) (key : κ) : get? (erase m key) key = none := by
  induction m with
  | nil => rfl
  | cons p rest ih =>
    obtain ⟨k, v⟩ := p
    by_cases h : k = key
    · subst h; simpa [erase] using ih
    · simpa [erase, get?, h] using ih

theorem get?_erase_of_ne (m : List (κ × α)) {key other : κ} (h : key ≠ other) :
    get? (erase m key) other = get? m other := by
  induction m with
  | nil => rfl
  | cons p rest ih =>
    obtain ⟨k, v⟩ := p
    by_cases hk : k = key
    · subst hk; simpa [erase, get?, h] using ih
    · by_cases ho : k = other
      · subst ho; simp [erase, get?, hk]
      · simpa [erase, get?, hk, ho] using ih

end ConnectionLeasing.Keyed

import ConnectionLeasing.Registry
import ConnectionLeasing.Proofs.Keyed

/-!
# Reading the registry after each of its operations

Three readings say all that matters of an entry: the slot number a context has there (`slotIn?`),
how many slots it has (`sizeIn`), and how many are on their way (`pendingIn`). There is a lemma for
each operation and each reading that it changes; a reading that an operation leaves alone is a
`simp` lemma.

A claim of room and a giving back change `pendingIn` only. `register` and `move` are the two ways in
which a context comes to a slot; `detach` is the only way in which it loses one.
-/

namespace ConnectionLeasing

theorem Entry.slot?_detach (x : Entry) (c d : ContextId) (id : Nat) :
    (x.detach c id).slot? d = if c = d ∧ x.slot? d = some id then none else x.slot? d := by
  unfold Entry.detach
  by_cases hs : x.slot? c = some id
  · rw [if_pos hs, Entry.slot?, Keyed.get?_erase]
    by_cases hc : c = d
    · subst hc
      simp [hs]
    · simp [hc, Entry.slot?]
  · rw [if_neg hs]
    by_cases hc : c = d
    · subst hc
      simp [hs]
    · simp [hc]

namespace Registry

/-- The slot number a context has in an entry. -/
def slotIn? (r : Registry) (e : Nat) (context : ContextId) : Option Nat := (r.entry e).slot? context

/-- How many slots an entry has. -/
def sizeIn (r : Registry) (e : Nat) : Nat := (r.entry e).size

/-- How many connections are being opened for an entry. -/
def pendingIn (r : Registry) (e : Nat) : Nat := (r.entry e).pending

/-- No context occurs twice in an entry. -/
def KeysDistinct (r : Registry) : Prop := ∀ e, (Keyed.keys (r.entry e).slots).Nodup

theorem entry_of_le {r : Registry} {e : Nat} (h : r.entries.length ≤ e) : r.entry e = {} := by
  simp [entry, List.getElem?_eq_none h]

theorem lt_of_slotIn? {r : Registry} {e : Nat} {c : ContextId} {id : Nat}
    (h : r.slotIn? e c = some id) : e < r.entries.length := by
  refine Nat.lt_of_not_le fun he => ?_
  rw [slotIn?, entry_of_le he] at h
  cases h

theorem lt_of_pendingIn {r : Registry} {e : Nat} (h : 0 < r.pendingIn e) :
    e < r.entries.length := by
  refine Nat.lt_of_not_le fun he => ?_
  rw [pendingIn, entry_of_le he] at h
  cases h

theorem slotIn?_of_mem {r : Registry} (h : r.KeysDistinct) {e id : Nat} {c : ContextId}
    (hm : (c, id) ∈ (r.entry e).slots) : r.slotIn? e c = some id :=
  (Keyed.get?_eq_some_iff (h e) c id).mpr hm

theorem mem_of_slotIn? {r : Registry} {e id : Nat} {c : ContextId} (h : r.slotIn? e c = some id) :
    (c, id) ∈ (r.entry e).slots :=
  Keyed.mem_of_get? h

theorem entry_mapEntry (r : Registry) {e : Nat} (other : Nat) {f : Entry → Entry}
    (h : f {} = {} ∨ e < r.entries.length) :
    (r.mapEntry e f).entry other = if e = other then f (r.entry other) else r.entry other := by
  unfold mapEntry entry
  simp only [List.getElem?_modify]
  by_cases he : e = other
  · subst he
    simp only [if_true]
    cases hx : r.entries[e]? with
    | some x => simp
    | none =>
      have hle : ¬ e < r.entries.length := by simpa using hx
      simpa using (h.resolve_right hle).symm
  · simp [he]

@[simp] theorem length_mapEntry (r : Registry) (e : Nat) (f : Entry → Entry) :
    (r.mapEntry e f).entries.length = r.entries.length := by
  simp [mapEntry]

/-! ### Making an identity known -/

section ensure
variable {r : Registry} {i : Identity}

theorem ensure_of_some {e : Nat} (h : r.entryId? i = some e) : r.ensure i = (r, e) := by
  simp [ensure, h]

theorem ensure_of_none (h : r.entryId? i = none) :
    r.ensure i = (⟨Keyed.put r.known i r.entries.length, r.entries ++ [({} : Entry)]⟩,
      r.entries.length) := by
  simp [ensure, h]

@[simp] theorem entry_ensure (e : Nat) : (r.ensure i).1.entry e = r.entry e := by
  cases h : r.entryId? i with
  | some n => rw [ensure_of_some h]
  | none =>
    rw [ensure_of_none h]
    rcases Nat.lt_trichotomy e r.entries.length with he | he | he
    · simp [entry, List.getElem?_append_left he]
    · simp [entry, he]
    · rw [entry_of_le (Nat.le_of_lt he), entry_of_le]
      simp only [List.length_append, List.length_singleton]
      exact he

theorem entryId?_ensure (h : r.entryId? i = none) (j : Identity) :
    (r.ensure i).1.entryId? j = if i = j then some r.entries.length else r.entryId? j := by
  rw [ensure_of_none h]
  exact Keyed.get?_put _ _ _ _

@[simp] theorem slotIn?_ensure (e : Nat) (c : ContextId) :
    (r.ensure i).1.slotIn? e c = r.slotIn? e c := by
  simp [slotIn?]

@[simp] theorem sizeIn_ensure (e : Nat) : (r.ensure i).1.sizeIn e = r.sizeIn e := by simp [sizeIn]

@[simp] theorem pendingIn_ensure (e : Nat) : (r.ensure i).1.pendingIn e = r.pendingIn e := by
  simp [pendingIn]

theorem KeysDistinct.ensure (h : r.KeysDistinct) : (r.ensure i).1.KeysDistinct := by
  intro e
  rw [entry_ensure]
  exact h e

end ensure

/-! ### Claiming room and giving it back -/

/-- Claims room for one more slot in an entry. -/
def claim (r : Registry) (e : Nat) : Registry :=
  r.mapEntry e fun x => { x with pending := x.pending + 1 }

section room
variable {r : Registry} {e : Nat} (other : Nat) (c : ContextId)

theorem entry_claim (h : e < r.entries.length) : (r.claim e).entry other =
    if e = other then { r.entry other with pending := (r.entry other).pending + 1 }
    else r.entry other :=
  entry_mapEntry r other (.inr h)

theorem entry_cancel : (r.cancel e).entry other =
    if e = other then { r.entry other with pending := (r.entry other).pending - 1 }
    else r.entry other :=
  entry_mapEntry r other (.inl rfl)

theorem slots_claim : ((r.claim e).entry other).slots = (r.entry other).slots := by
  rcases Nat.lt_or_ge e r.entries.length with h | h
  · rw [entry_claim other h]
    split <;> rfl
  · have hm : r.entries.modify e (fun x => { x with pending := x.pending + 1 }) = r.entries :=
      List.modify_eq_self h
    rw [claim, mapEntry, hm]

theorem slots_cancel : ((r.cancel e).entry other).slots = (r.entry other).slots := by
  rw [entry_cancel]
  split <;> rfl

@[simp] theorem slotIn?_claim : (r.claim e).slotIn? other c = r.slotIn? other c := by
  simp [slotIn?, Entry.slot?, slots_claim]

@[simp] theorem slotIn?_cancel : (r.cancel e).slotIn? other c = r.slotIn? other c := by
  simp [slotIn?, Entry.slot?, slots_cancel]

@[simp] theorem sizeIn_claim : (r.claim e).sizeIn other = r.sizeIn other := by
  simp [sizeIn, Entry.size, slots_claim]

@[simp] theorem sizeIn_cancel : (r.cancel e).sizeIn other = r.sizeIn other := by
  simp [sizeIn, Entry.size, slots_cancel]

theorem pendingIn_claim (h : e < r.entries.length) : (r.claim e).pendingIn other =
    if e = other then r.pendingIn other + 1 else r.pendingIn other := by
  rw [pendingIn, entry_claim other h]
  split <;> rfl

theorem pendingIn_cancel : (r.cancel e).pendingIn other =
    if e = other then r.pendingIn other - 1 else r.pendingIn other := by
  rw [pendingIn, entry_cancel]
  split <;> rfl

theorem KeysDistinct.claim (h : r.KeysDistinct) : (r.claim e).KeysDistinct := by
  intro other
  rw [slots_claim]
  exact h other

theorem KeysDistinct.cancel (h : r.KeysDistinct) : (r.cancel e).KeysDistinct := by
  intro other
  rw [slots_cancel]
  exact h other

end room

/-! ### Registering and removing slots -/

section slots
variable {r : Registry} {e : Nat} (other : Nat) (c : ContextId) (id : Nat)

theorem entry_insert (h : e < r.entries.length) : (r.insert e c id).1.entry other =
    if e = other then { r.entry other with slots := Keyed.put (r.entry other).slots c id }
    else r.entry other :=
  entry_mapEntry r other (.inr h)

theorem slotIn?_insert (h : e < r.entries.length) (d : ContextId) :
    (r.insert e c id).1.slotIn? other d =
      if e = other ∧ c = d then some id else r.slotIn? other d := by
  rw [slotIn?, entry_insert other c id h]
  by_cases he : e = other
  · simp [he, slotIn?, Entry.slot?, Keyed.get?_put]
  · simp [he, slotIn?]

theorem sizeIn_insert_le : (r.insert e c id).1.sizeIn other ≤
    if e = other then r.sizeIn other + 1 else r.sizeIn other := by
  rcases Nat.lt_or_ge e r.entries.length with h | h
  · rw [sizeIn, entry_insert other c id h]
    split
    · exact Keyed.length_put_le _ _ _
    · exact Nat.le_refl _
  · have hm : (r.insert e c id).1 = r := by
      rw [insert, mapEntry, List.modify_eq_self h]
    rw [hm]
    split <;> omega

@[simp] theorem pendingIn_insert : (r.insert e c id).1.pendingIn other = r.pendingIn other := by
  rcases Nat.lt_or_ge e r.entries.length with h | h
  · rw [pendingIn, entry_insert other c id h]
    split <;> rfl
  · have hm : (r.insert e c id).1 = r := by
      rw [insert, mapEntry, List.modify_eq_self h]
    rw [hm]

theorem KeysDistinct.insert (h : r.KeysDistinct) : (r.insert e c id).1.KeysDistinct := by
  intro other
  rcases Nat.lt_or_ge e r.entries.length with he | he
  · rw [entry_insert other c id he]
    split
    · exact Keyed.nodup_put (h other) c id
    · exact h other
  · have hm : (r.insert e c id).1 = r := by
      rw [Registry.insert, mapEntry, List.modify_eq_self he]
    rw [hm]
    exact h other

theorem entry_detach : (r.detach e c id).entry other =
    if e = other then (r.entry other).detach c id else r.entry other := by
  refine entry_mapEntry r other (.inl ?_)
  simp [Entry.detach, Entry.slot?]

theorem slotIn?_detach (d : ContextId) : (r.detach e c id).slotIn? other d =
    if e = other ∧ c = d ∧ r.slotIn? other d = some id then none else r.slotIn? other d := by
  rw [slotIn?, entry_detach]
  by_cases he : e = other
  · simp [he, Entry.slot?_detach, slotIn?]
  · simp [he, slotIn?]

theorem sizeIn_detach_le : (r.detach e c id).sizeIn other ≤ r.sizeIn other := by
  rw [sizeIn, entry_detach]
  split
  · unfold Entry.detach
    split
    · exact Keyed.length_erase_le _ _
    · exact Nat.le_refl _
  · exact Nat.le_refl _

theorem sizeIn_detach_lt (h : r.slotIn? e c = some id) :
    (r.detach e c id).sizeIn e < r.sizeIn e := by
  have hs : (r.entry e).slot? c = some id := h
  rw [sizeIn, entry_detach, if_pos rfl, Entry.detach, if_pos hs]
  exact Keyed.length_erase_lt hs

@[simp] theorem pendingIn_detach : (r.detach e c id).pendingIn other = r.pendingIn other := by
  rw [pendingIn, entry_detach]
  split
  · unfold Entry.detach
    split <;> rfl
  · rfl

theorem KeysDistinct.detach (h : r.KeysDistinct) : (r.detach e c id).KeysDistinct := by
  intro other
  rw [entry_detach]
  split
  · unfold Entry.detach
    split
    · exact Keyed.nodup_erase (h other) c
    · exact h other
  · exact h other

end slots

end Registry

end ConnectionLeasing

import ConnectionLeasing.Proofs.Affine.Change

/-!
# What the lookups of a manager find

Each lookup that goes from a slot number to an open handle, read as facts about the slot's owner,
its handle and whether it is lent out.
-/

namespace ConnectionLeasing.Affine.State

variable {s : State} {i : Identity} {e id : Nat} {c : ContextId} {h : Handle} {x : Closing}

theorem slot?_of_handle? (hs : s.handle? id = some h) :
    ∃ y, s.slot? id = some y ∧ y.handle = some h :=
  Option.bind_eq_some_iff.mp hs

theorem openHandle?_eq_some (ho : s.openHandle? c id = some h) :
    s.owner? id = some c ∧ s.handle? id = some h := by
  obtain ⟨y, hy, hopen⟩ := Option.bind_eq_some_iff.mp ho
  obtain ⟨howner, hhandle⟩ := Slot.openFor_eq_some.mp hopen
  refine ⟨?_, Option.bind_eq_some_iff.mpr ⟨y, hy, hhandle⟩⟩
  rw [owner?, hy, ← howner]
  rfl

theorem idleHandle?_eq_some (hi : s.idleHandle? c id = some h) :
    s.owner? id = some c ∧ s.handle? id = some h ∧ s.isLent id = false := by
  obtain ⟨y, hy, hidle⟩ := Option.bind_eq_some_iff.mp hi
  split at hidle
  · cases hidle
  · rename_i hb
    have hopen : s.openHandle? c id = some h := Option.bind_eq_some_iff.mpr ⟨y, hy, hidle⟩
    obtain ⟨ho, hh⟩ := openHandle?_eq_some hopen
    refine ⟨ho, hh, ?_⟩
    rw [isLent, hy]
    simpa using hb

theorem ownClosing?_eq_some (hx : s.ownClosing? i e c = some x) :
    x.identity = i ∧ x.entry = e ∧ x.owner = c ∧ s.slotIn? e c = some x.slot ∧
      s.owner? x.slot = some c ∧ s.handle? x.slot = some x.handle := by
  obtain ⟨id, hid, hmap⟩ := Option.bind_eq_some_iff.mp hx
  obtain ⟨h, hh, rfl⟩ := Option.map_eq_some_iff.mp hmap
  exact ⟨rfl, rfl, rfl, hid, openHandle?_eq_some hh⟩

theorem anyClosing?_eq_some (hx : s.anyClosing? i e id = some x) :
    x.identity = i ∧ x.entry = e ∧ x.slot = id ∧ s.owner? x.slot = some x.owner ∧
      s.handle? x.slot = some x.handle := by
  obtain ⟨y, hy, hmap⟩ := Option.bind_eq_some_iff.mp hx
  obtain ⟨h, hh, rfl⟩ := Option.map_eq_some_iff.mp hmap
  refine ⟨rfl, rfl, rfl, ?_, Option.bind_eq_some_iff.mpr ⟨y, hy, hh⟩⟩
  rw [owner?, hy]
  rfl

theorem handle?_of_anyClosing? (hx : s.anyClosing? i e id = none) : s.handle? id = none := by
  rw [handle?]
  rw [anyClosing?] at hx
  cases hy : s.slot? id with
  | none => rfl
  | some y =>
    rw [hy] at hx
    cases hh : y.handle with
    | none => exact hh
    | some h => simp [hh] at hx

theorem firstOpen?_eq_some {p : Slot → Bool} {slots rest : List (ContextId × Nat)}
    (hx : s.firstOpen? p i e slots = some (x, rest)) :
    x.identity = i ∧ x.entry = e ∧ (∃ y, s.slot? x.slot = some y ∧ p y = true) ∧
      s.owner? x.slot = some x.owner ∧ s.handle? x.slot = some x.handle ∧
      ∃ passed, slots = passed ++ (x.owner, x.slot) :: rest ∧
        ∀ q ∈ passed, ∀ y, s.slot? q.2 = some y → p y = true → y.openFor q.1 = none := by
  induction slots with
  | nil => cases hx
  | cons q slots ih =>
    obtain ⟨d, id⟩ := q
    rw [firstOpen?] at hx
    split at hx
    · rename_i h hh
      cases hx
      obtain ⟨y, hy, hopen⟩ := Option.bind_eq_some_iff.mp hh
      split at hopen
      · rename_i hp
        have ho : s.openHandle? d id = some h := Option.bind_eq_some_iff.mpr ⟨y, hy, hopen⟩
        obtain ⟨hown, hhand⟩ := openHandle?_eq_some ho
        exact ⟨rfl, rfl, ⟨y, hy, hp⟩, hown, hhand, [], rfl, by simp⟩
      · cases hopen
    · rename_i hnone
      obtain ⟨hi, he, hy, ho, hh, passed, hslots, hpassed⟩ := ih hx
      refine ⟨hi, he, hy, ho, hh, (d, id) :: passed, by rw [hslots]; rfl, ?_⟩
      intro q hq y hqy hp
      rcases List.mem_cons.mp hq with rfl | hq
      · rw [hqy] at hnone
        simpa [hp] using hnone
      · exact hpassed q hq y hqy hp

theorem openFor_of_firstOpen? {p : Slot → Bool} {slots : List (ContextId × Nat)}
    (hx : s.firstOpen? p i e slots = none) :
    ∀ q ∈ slots, ∀ y, s.slot? q.2 = some y → p y = true → y.openFor q.1 = none := by
  induction slots with
  | nil => simp
  | cons q slots ih =>
    obtain ⟨d, id⟩ := q
    rw [firstOpen?] at hx
    split at hx
    · cases hx
    · rename_i hnone
      intro q hq y hqy hp
      rcases List.mem_cons.mp hq with rfl | hq
      · rw [hqy] at hnone
        simpa [hp] using hnone
      · exact ih hx q hq y hqy hp

end ConnectionLeasing.Affine.State

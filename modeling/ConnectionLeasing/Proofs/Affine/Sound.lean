import ConnectionLeasing.Proofs.Affine.Change

/-!
# What holds in the middle of every operation

While checks and disconnects do not call back, four things hold at every stage of an operation, and
each change keeps them (`Change.sound`):

* `Indexed`: every entry and every slot has its place in the two lists that give numbers a meaning,
  and no key occurs twice.
* `Placed`: a slot is registered in the entry it was made in, under its owner, and is open; an open
  slot is registered. The exceptions are the slot that was just displaced, which is open and not
  registered, and the one being closed, which is registered and not open.
* `Accounted`: a handle that was connected is either in exactly one slot and was never asked to
  disconnect, or in no slot and was asked exactly once.
-/

namespace ConnectionLeasing.Affine

namespace State

variable {s : State}

theorem slot?_mapSlot (s : State) (id other : Nat) (f : Slot → Slot) :
    (s.mapSlot id f).slot? other = if id = other then (s.slot? other).map f else s.slot? other := by
  by_cases h : id = other
  · subst h; simp
  · rw [slot?_mapSlot_of_ne s f h, if_neg h]

theorem slot?_mapSlot_cases {id other : Nat} {f : Slot → Slot} {x : Slot}
    (h : (s.mapSlot id f).slot? other = some x) :
    (id = other ∧ ∃ y, s.slot? other = some y ∧ x = f y) ∨
      (id ≠ other ∧ s.slot? other = some x) := by
  rw [slot?_mapSlot] at h
  by_cases heq : id = other
  · rw [if_pos heq] at h
    obtain ⟨y, hy, rfl⟩ := Option.map_eq_some_iff.mp h
    exact .inl ⟨heq, y, hy, rfl⟩
  · rw [if_neg heq] at h
    exact .inr ⟨heq, h⟩

theorem owner?_mapSlot {f : Slot → Slot} (hf : ∀ x, (f x).owner = x.owner) (id other : Nat) :
    (s.mapSlot id f).owner? other = s.owner? other := by
  unfold owner?
  rw [slot?_mapSlot]
  split
  · rw [Option.map_map]
    exact congrArg (Option.map · (s.slot? other)) (funext hf)
  · rfl

theorem handle?_mapSlot {f : Slot → Slot} (hf : ∀ x, (f x).handle = x.handle) (id other : Nat) :
    (s.mapSlot id f).handle? other = s.handle? other := by
  unfold handle?
  rw [slot?_mapSlot]
  split
  · cases s.slot? other with
    | none => rfl
    | some x => exact hf x
  · rfl

theorem lt_of_handle? {id : Nat} {h : Handle} (hs : s.handle? id = some h) :
    id < s.slots.length := by
  refine Nat.lt_of_not_le fun hle => ?_
  simp [handle?, slot?, List.getElem?_eq_none hle] at hs

theorem lt_of_owner? {id : Nat} {c : ContextId} (hs : s.owner? id = some c) :
    id < s.slots.length := by
  refine Nat.lt_of_not_le fun hle => ?_
  simp [owner?, slot?, List.getElem?_eq_none hle] at hs

/-! ### Closing a slot -/

section closing
variable (c : Closing) (failure : Option LeaseError)

@[simp] theorem owner?_beginClosing (id : Nat) : (s.beginClosing c).owner? id = s.owner? id :=
  owner?_mapSlot (f := fun x => { x with handle := none }) (fun _ => rfl) c.slot id

theorem handle?_beginClosing (id : Nat) :
    (s.beginClosing c).handle? id = if c.slot = id then none else s.handle? id := by
  rw [handle?, beginClosing, slot?_mapSlot]
  split
  · cases s.slot? id <;> rfl
  · rfl

theorem registry_finishClosing :
    (s.finishClosing c failure).registry = s.registry.detach c.entry c.owner c.slot := by
  cases failure <;> rfl

theorem slots_finishClosing : (s.finishClosing c failure).slots =
    (s.mapSlot c.slot fun x => { x with borrowed := false }).slots := by
  cases failure <;> rfl

theorem slot?_finishClosing (id : Nat) : (s.finishClosing c failure).slot? id =
    (s.mapSlot c.slot fun x => { x with borrowed := false }).slot? id := by
  rw [slot?, slots_finishClosing]
  rfl

@[simp] theorem owner?_finishClosing (id : Nat) :
    (s.finishClosing c failure).owner? id = s.owner? id := by
  rw [owner?, slot?_finishClosing]
  exact owner?_mapSlot (f := fun x => { x with borrowed := false }) (fun _ => rfl) c.slot id

@[simp] theorem handle?_finishClosing (id : Nat) :
    (s.finishClosing c failure).handle? id = s.handle? id := by
  rw [handle?, slot?_finishClosing]
  exact handle?_mapSlot (f := fun x => { x with borrowed := false }) (fun _ => rfl) c.slot id

theorem slotIn?_finishClosing (e : Nat) (d : ContextId) :
    (s.finishClosing c failure).slotIn? e d =
      if c.entry = e ∧ c.owner = d ∧ s.slotIn? e d = some c.slot then none else s.slotIn? e d := by
  rw [slotIn?, registry_finishClosing, Registry.slotIn?_detach]
  rfl

end closing

end State

namespace Stage

/-- Numbers have their meaning, and no key occurs twice. -/
structure Indexed (g : Stage) : Prop where
  homes : g.homes.length = g.state.registry.entries.length
  places : g.places.length = g.state.slots.length
  known : (Keyed.keys g.state.registry.known).Nodup
  home : ∀ p ∈ g.state.registry.known, g.homes[p.2]? = some p.1
  keys : g.state.registry.KeysDistinct

/-- Registered slots are open and stand under their owner in their own entry; open slots are
registered. -/
structure Placed (g : Stage) : Prop where
  place : ∀ e c id, g.state.slotIn? e c = some id → g.places[id]? = some e
  owner : ∀ e c id, g.state.slotIn? e c = some id → g.state.owner? id = some c
  live : ∀ e c id, g.state.slotIn? e c = some id →
    (∃ h, g.state.handle? id = some h) ∨ ∃ x, g.closing = some x ∧ x.slot = id
  kept : ∀ id h, g.state.handle? id = some h →
    (∃ e c, g.state.slotIn? e c = some id) ∨ g.displaced = some id
  displaced : ∀ id, g.displaced = some id →
    (∀ e c, g.state.slotIn? e c ≠ some id) ∧ ∃ h, g.state.handle? id = some h
  closing : ∀ x, g.closing = some x → g.state.handle? x.slot = none ∧
    g.state.owner? x.slot = some x.owner ∧ g.places[x.slot]? = some x.entry

/-- Every connected handle is in one slot, or was asked to disconnect once. -/
structure Accounted (g : Stage) : Prop where
  nodup : (g.opened.map (·.2)).Nodup
  held : ∀ id h, g.state.handle? id = some h →
    ∃ e i, g.places[id]? = some e ∧ g.homes[e]? = some i ∧ (i, h) ∈ g.opened
  once : ∀ id other h, g.state.handle? id = some h → g.state.handle? other = some h → id = other
  unasked : ∀ id h, g.state.handle? id = some h → h ∉ g.disconnected
  asked : ∀ p ∈ g.opened, (∃ id, g.state.handle? id = some p.2) ∨ g.disconnected.count p.2 = 1
  past : ∀ h ∈ g.disconnected, ∃ i, (i, h) ∈ g.opened

structure Sound (g : Stage) : Prop where
  indexed : g.Indexed
  placed : g.Placed
  accounted : g.Accounted

theorem Placed.slotIn?_inj {g : Stage} (hs : g.Placed) {e e' id : Nat} {c c' : ContextId}
    (h : g.state.slotIn? e c = some id) (h' : g.state.slotIn? e' c' = some id) :
    e' = e ∧ c' = c := by
  have he : some e' = some e := (hs.place e' c' id h').symm.trans (hs.place e c id h)
  have hc : some c' = some c := (hs.owner e' c' id h').symm.trans (hs.owner e c id h)
  exact ⟨Option.some.inj he, Option.some.inj hc⟩

/-- While no slot is being closed, what is registered is open. -/
theorem Placed.exists_handle {g : Stage} (hs : g.Placed) (hc : g.closing = none) {e id : Nat}
    {c : ContextId} (h : g.state.slotIn? e c = some id) : ∃ x, g.state.handle? id = some x := by
  rcases hs.live e c id h with hopen | ⟨x, hx, -⟩
  · exact hopen
  · rw [hc] at hx
    cases hx

/-- While no slot is displaced, what is open is registered. -/
theorem Placed.exists_slotIn? {g : Stage} (hs : g.Placed) (hd : g.displaced = none) {id : Nat}
    {x : Handle} (h : g.state.handle? id = some x) : ∃ e c, g.state.slotIn? e c = some id := by
  rcases hs.kept id x h with hin | hdisplaced
  · exact hin
  · rw [hd] at hdisplaced
    cases hdisplaced

/-! ### Changes that leave slots where they are -/

/-- Two stages that differ at most in the flags and times of slots, in what is known and pending,
and in what is written down. -/
structure Alike (g g' : Stage) : Prop where
  slotIn? : ∀ e c, g'.state.slotIn? e c = g.state.slotIn? e c
  owner? : ∀ id, g'.state.owner? id = g.state.owner? id
  handle? : ∀ id, g'.state.handle? id = g.state.handle? id
  homes : g.homes <+: g'.homes
  places : g'.places = g.places
  displaced : g'.displaced = g.displaced
  closing : g'.closing = g.closing
  opened : g'.opened = g.opened
  disconnected : g'.disconnected = g.disconnected

theorem getElem?_of_isPrefix {α : Type} {l l' : List α} (h : l <+: l') {n : Nat} {a : α}
    (hn : l[n]? = some a) : l'[n]? = some a := by
  obtain ⟨t, rfl⟩ := h
  have hlt : n < l.length := (List.getElem?_eq_some_iff.mp hn).1
  rw [List.getElem?_append_left hlt, hn]

theorem Placed.alike {g g' : Stage} (h : g.Placed) (ha : g.Alike g') : g'.Placed where
  place e c id := by rw [ha.slotIn?, ha.places]; exact h.place e c id
  owner e c id := by rw [ha.slotIn?, ha.owner?]; exact h.owner e c id
  live e c id := by rw [ha.slotIn?, ha.handle?, ha.closing]; exact h.live e c id
  kept id x := by simp only [ha.slotIn?, ha.handle?, ha.displaced]; exact h.kept id x
  displaced id := by simp only [ha.slotIn?, ha.handle?, ha.displaced]; exact h.displaced id
  closing x := by
    simp only [ha.owner?, ha.handle?, ha.places, ha.closing]
    exact h.closing x

theorem Accounted.of_handle? {g g' : Stage} (h : g.Accounted)
    (hh : ∀ id, g'.state.handle? id = g.state.handle? id) (homes : g.homes <+: g'.homes)
    (places : g'.places = g.places) (opened : g'.opened = g.opened)
    (disconnected : g'.disconnected = g.disconnected) : g'.Accounted where
  nodup := by rw [opened]; exact h.nodup
  held id x := by
    rw [hh, places, opened]
    intro hx
    obtain ⟨e, i, hp, hi, ho⟩ := h.held id x hx
    exact ⟨e, i, hp, getElem?_of_isPrefix homes hi, ho⟩
  once id other x := by rw [hh, hh]; exact h.once id other x
  unasked id x := by rw [hh, disconnected]; exact h.unasked id x
  asked p := by simp only [hh, opened, disconnected]; exact h.asked p
  past x := by rw [opened, disconnected]; exact h.past x

theorem Accounted.alike {g g' : Stage} (h : g.Accounted) (ha : g.Alike g') : g'.Accounted :=
  h.of_handle? ha.handle? ha.homes ha.places ha.opened ha.disconnected

theorem alike_mapSlot (g : Stage) (id : Nat) {f : Slot → Slot} (ho : ∀ x, (f x).owner = x.owner)
    (hh : ∀ x, (f x).handle = x.handle) : g.Alike (g.withState (g.state.mapSlot id f)) where
  slotIn? _ _ := rfl
  owner? := State.owner?_mapSlot ho id
  handle? := State.handle?_mapSlot hh id
  homes := List.prefix_refl _
  places := rfl
  displaced := rfl
  closing := rfl
  opened := rfl
  disconnected := rfl

theorem alike_withRegistry (g : Stage) {r : Registry} {homes : List Identity} {claim : Option Nat}
    (hr : ∀ e c, r.slotIn? e c = g.state.registry.slotIn? e c) (hh : g.homes <+: homes) :
    g.Alike { g.withRegistry r with homes, claim } where
  slotIn? := hr
  owner? _ := rfl
  handle? _ := rfl
  homes := hh
  places := rfl
  displaced := rfl
  closing := rfl
  opened := rfl
  disconnected := rfl

/-! ### A new slot -/

section register
variable {g : Stage} {now e : Nat} {r : Request} {h : Handle}

theorem slotIn?_register (he : e < g.state.registry.entries.length) (other : Nat) (c : ContextId) :
    (g.register now r e h).state.slotIn? other c =
      if e = other ∧ r.context = c then some g.state.slots.length else g.state.slotIn? other c := by
  have hl : e < (g.state.registry.cancel e).entries.length := by
    rw [Registry.cancel, Registry.length_mapEntry]
    exact he
  refine (Registry.slotIn?_insert other r.context g.state.slots.length hl c).trans ?_
  rw [Registry.slotIn?_cancel]
  rfl

theorem slot?_register (id : Nat) : (g.register now r e h).state.slot? id =
    if id = g.state.slots.length then some (Slot.lentTo r.context h now) else g.state.slot? id := by
  show (g.state.slots ++ [Slot.lentTo r.context h now])[id]? = _
  rcases Nat.lt_trichotomy id g.state.slots.length with hi | hi | hi
  · rw [List.getElem?_append_left hi, if_neg (Nat.ne_of_lt hi)]
    rfl
  · subst hi
    simp
  · rw [if_neg (Nat.ne_of_gt hi), State.slot?, List.getElem?_eq_none (Nat.le_of_lt hi)]
    refine List.getElem?_eq_none ?_
    simp only [List.length_append, List.length_singleton]
    exact hi

theorem owner?_register (id : Nat) : (g.register now r e h).state.owner? id =
    if id = g.state.slots.length then some r.context else g.state.owner? id := by
  rw [State.owner?, slot?_register]
  split <;> rfl

theorem handle?_register (id : Nat) : (g.register now r e h).state.handle? id =
    if id = g.state.slots.length then some h else g.state.handle? id := by
  rw [State.handle?, slot?_register]
  split <;> rfl

theorem Indexed.register (hs : g.Indexed) : (g.register now r e h).Indexed where
  homes := by
    rw [show (g.register now r e h).state.registry.entries.length =
      g.state.registry.entries.length by simp [Stage.register, Registry.commit, Registry.insert,
        Registry.cancel]]
    exact hs.homes
  places := by simp [Stage.register, hs.places]
  known := hs.known
  home := hs.home
  keys := Registry.KeysDistinct.insert _ _ hs.keys.cancel

/-- The new slot is registered for the caller, every other one where it was. -/
theorem slotIn?_register_cases (he : e < g.state.registry.entries.length) {other id : Nat}
    {c : ContextId} (h' : (g.register now r e h).state.slotIn? other c = some id) :
    (e = other ∧ r.context = c ∧ id = g.state.slots.length) ∨
      (¬ (e = other ∧ r.context = c) ∧ g.state.slotIn? other c = some id) := by
  rw [slotIn?_register he] at h'
  by_cases hk : e = other ∧ r.context = c
  · rw [if_pos hk] at h'
    exact .inl ⟨hk.1, hk.2, (Option.some.inj h').symm⟩
  · rw [if_neg hk] at h'
    exact .inr ⟨hk, h'⟩

theorem Indexed.getElem?_places_register (hi : g.Indexed) :
    (g.places ++ [e])[g.state.slots.length]? = some e := by
  rw [← hi.places]
  simp

theorem Placed.register (hi : g.Indexed) (hs : g.Placed) (hd : g.displaced = none)
    (hc : g.closing = none) (he : g.homes[e]? = some r.identity) :
    (g.register now r e h).Placed := by
  have hlt : e < g.state.registry.entries.length := by
    rw [← hi.homes]
    exact (List.getElem?_eq_some_iff.mp he).1
  -- the number of a registered slot is an old one
  have hold : ∀ {e' c' id}, g.state.slotIn? e' c' = some id → id ≠ g.state.slots.length :=
    fun hr => Nat.ne_of_lt (State.lt_of_owner? (hs.owner _ _ _ hr))
  exact {
    place := by
      intro e' c' id hr
      rcases slotIn?_register_cases hlt hr with ⟨he', -, hid⟩ | ⟨-, hr⟩
      · rw [hid, ← he']
        exact hi.getElem?_places_register
      · exact getElem?_of_isPrefix (List.prefix_append _ _) (hs.place e' c' id hr)
    owner := by
      intro e' c' id hr
      rw [owner?_register]
      rcases slotIn?_register_cases hlt hr with ⟨-, hc', hid⟩ | ⟨-, hr⟩
      · rw [if_pos hid, hc']
      · rw [if_neg (hold hr)]
        exact hs.owner e' c' id hr
    live := by
      intro e' c' id hr
      rw [handle?_register]
      rcases slotIn?_register_cases hlt hr with ⟨-, -, hid⟩ | ⟨-, hr⟩
      · exact .inl ⟨h, if_pos hid⟩
      · rw [if_neg (hold hr)]
        exact hs.live e' c' id hr
    kept := by
      intro id x hx
      rw [handle?_register] at hx
      by_cases hid : id = g.state.slots.length
      · refine .inl ⟨e, r.context, ?_⟩
        rw [slotIn?_register hlt, if_pos ⟨rfl, rfl⟩, hid]
      · rw [if_neg hid] at hx
        obtain ⟨e', c', hr⟩ := hs.exists_slotIn? hd hx
        -- the slot the caller had is the one that the new slot displaces
        by_cases hk : e = e' ∧ r.context = c'
        · obtain ⟨rfl, rfl⟩ := hk
          exact .inr hr
        · refine .inl ⟨e', c', ?_⟩
          rw [slotIn?_register hlt, if_neg hk]
          exact hr
    displaced := by
      intro id hid
      have hr : g.state.slotIn? e r.context = some id := hid
      constructor
      · intro e' c' hr'
        rcases slotIn?_register_cases hlt hr' with ⟨-, -, hid'⟩ | ⟨hk, hr'⟩
        · exact hold hr hid'
        · exact hk (hs.slotIn?_inj hr' hr)
      · rw [handle?_register, if_neg (hold hr)]
        exact hs.exists_handle hc hr
    closing := by
      intro x hx
      have hx' : g.closing = some x := hx
      rw [hc] at hx'
      cases hx' }

theorem Accounted.register (hi : g.Indexed) (hs : g.Accounted)
    (he : g.homes[e]? = some r.identity) (hh : ∀ p ∈ g.opened, p.2 ≠ h) :
    (g.register now r e h).Accounted := by
  have hheld : ∀ id, g.state.handle? id ≠ some h := by
    intro id hid
    obtain ⟨_, _, _, _, ho⟩ := hs.held id h hid
    exact hh _ ho rfl
  refine ⟨?_, fun id x hx => ?_, fun id other x hx hy => ?_, fun id x hx => ?_, fun p hp => ?_,
    fun x hx => ?_⟩
  · show ((g.opened ++ [(r.identity, h)]).map (·.2)).Nodup
    rw [List.map_append, List.nodup_append]
    refine ⟨hs.nodup, by simp, ?_⟩
    rintro a ha b hb rfl
    obtain ⟨p, hp, rfl⟩ := List.mem_map.mp ha
    exact hh p hp (List.mem_singleton.mp hb)
  · rw [handle?_register] at hx
    split at hx
    · rename_i hid
      cases hx
      refine ⟨e, r.identity, ?_, he, List.mem_append_right _ (List.mem_singleton_self _)⟩
      rw [hid]
      exact hi.getElem?_places_register
    · obtain ⟨e', i, hp, hi', ho⟩ := hs.held id x hx
      exact ⟨e', i, getElem?_of_isPrefix (List.prefix_append _ _) hp, hi',
        List.mem_append_left _ ho⟩
  · rw [handle?_register] at hx hy
    split at hx <;> split at hy
    · rename_i h1 h2
      rw [h1, h2]
    · cases hx
      exact absurd hy (hheld other)
    · cases hy
      exact absurd hx (hheld id)
    · exact hs.once id other x hx hy
  · show x ∉ g.disconnected
    rw [handle?_register] at hx
    split at hx
    · cases hx
      intro hm
      obtain ⟨i, ho⟩ := hs.past h hm
      exact hh _ ho rfl
    · exact hs.unasked id x hx
  · rcases List.mem_append.mp hp with hp | hp
    · rcases hs.asked p hp with ⟨id, hid⟩ | hcount
      · refine .inl ⟨id, ?_⟩
        rw [handle?_register, if_neg (Nat.ne_of_lt (State.lt_of_handle? hid))]
        exact hid
      · exact .inr hcount
    · refine .inl ⟨g.state.slots.length, ?_⟩
      rw [handle?_register, if_pos rfl, List.mem_singleton.mp hp]
  · obtain ⟨i, ho⟩ := hs.past x hx
    exact ⟨i, List.mem_append_left _ ho⟩

end register

/-! ### A slot moves to another context -/

section move
variable {g : Stage} {now e id : Nat} {r : Request} {source : ContextId}

theorem slotIn?_move (hs : g.state.slotIn? e source = some id) (other : Nat) (c : ContextId) :
    (g.move now r e source id).state.slotIn? other c =
      if e = other ∧ r.context = c then some id
      else if e = other ∧ source = c ∧ g.state.slotIn? other c = some id then none
      else g.state.slotIn? other c := by
  have hl : e < (g.state.registry.detach e source id).entries.length := by
    rw [Registry.detach, Registry.length_mapEntry]
    exact Registry.lt_of_slotIn? hs
  refine (Registry.slotIn?_insert other r.context id hl c).trans ?_
  rw [Registry.slotIn?_detach]
  rfl

theorem handle?_move (other : Nat) :
    (g.move now r e source id).state.handle? other = g.state.handle? other :=
  State.handle?_mapSlot (f := (·.takenOver r.context now)) (fun _ => rfl) id other

theorem owner?_move (other : Nat) : (g.move now r e source id).state.owner? other =
    if id = other then (g.state.owner? other).map fun _ => r.context
    else g.state.owner? other := by
  show ((g.state.mapSlot id (·.takenOver r.context now)).slot? other).map (·.owner) = _
  rw [State.slot?_mapSlot]
  split
  · rw [Option.map_map, State.owner?, Option.map_map]
    rfl
  · rfl

theorem Indexed.move (hs : g.Indexed) : (g.move now r e source id).Indexed where
  homes := by
    rw [show (g.move now r e source id).state.registry.entries.length =
      g.state.registry.entries.length by simp [Stage.move, Registry.detach, Registry.insert,
        State.mapSlot]]
    exact hs.homes
  places := by simp [Stage.move, State.mapSlot, hs.places]
  known := hs.known
  home := hs.home
  keys := Registry.KeysDistinct.insert _ _ (hs.keys.detach _ _)

/-- The moved slot is registered for the caller, every other one where it was. -/
theorem slotIn?_move_cases (hr : g.state.slotIn? e source = some id)
    (honce : ∀ {e' c'}, g.state.slotIn? e' c' = some id → e' = e ∧ c' = source)
    {other id' : Nat} {c : ContextId}
    (h : (g.move now r e source id).state.slotIn? other c = some id') :
    (e = other ∧ r.context = c ∧ id' = id) ∨
      (¬ (e = other ∧ r.context = c) ∧ id' ≠ id ∧ g.state.slotIn? other c = some id') := by
  rw [slotIn?_move hr] at h
  by_cases hk : e = other ∧ r.context = c
  · rw [if_pos hk] at h
    exact .inl ⟨hk.1, hk.2, (Option.some.inj h).symm⟩
  · rw [if_neg hk] at h
    split at h
    · cases h
    · rename_i hn
      refine .inr ⟨hk, ?_, h⟩
      rintro rfl
      obtain ⟨he, hc⟩ := honce h
      exact hn ⟨he.symm, hc.symm, h⟩

/-- A move displaces what its caller had. -/
theorem displaced_move (hne : source ≠ r.context) :
    (g.move now r e source id).displaced = g.state.slotIn? e r.context := by
  show (g.state.registry.detach e source id).slotIn? e r.context = _
  rw [Registry.slotIn?_detach, if_neg fun hk => hne hk.2.1]
  rfl

theorem Placed.move (hs : g.Placed) (hr : g.state.slotIn? e source = some id)
    (hd : g.displaced = none) (hc : g.closing = none) (hne : source ≠ r.context)
    (ho : ∃ h, g.state.handle? id = some h) : (g.move now r e source id).Placed where
  place := by
    intro e' c' id' h
    rcases slotIn?_move_cases hr (hs.slotIn?_inj hr) h with ⟨he, -, hid⟩ | ⟨-, -, h⟩
    · rw [hid, ← he]
      exact hs.place e _ id hr
    · exact hs.place e' c' id' h
  owner := by
    intro e' c' id' h
    rw [owner?_move]
    rcases slotIn?_move_cases hr (hs.slotIn?_inj hr) h with ⟨-, hc', hid⟩ | ⟨-, hid, h⟩
    · rw [if_pos hid.symm, hid, hs.owner e _ id hr, ← hc']
      rfl
    · rw [if_neg fun h' => hid h'.symm]
      exact hs.owner e' c' id' h
  live := by
    intro e' c' id' h
    rw [handle?_move]
    rcases slotIn?_move_cases hr (hs.slotIn?_inj hr) h with ⟨-, -, hid⟩ | ⟨-, -, h⟩
    · rw [hid]
      exact .inl ho
    · exact hs.live e' c' id' h
  kept := by
    intro id' x hx
    rw [handle?_move] at hx
    rw [displaced_move hne]
    by_cases hid : id' = id
    · refine .inl ⟨e, r.context, ?_⟩
      rw [slotIn?_move hr, if_pos ⟨rfl, rfl⟩, hid]
    · obtain ⟨e', c', h⟩ := hs.exists_slotIn? hd hx
      by_cases hk : e = e' ∧ r.context = c'
      · obtain ⟨rfl, rfl⟩ := hk
        exact .inr h
      · refine .inl ⟨e', c', ?_⟩
        rw [slotIn?_move hr, if_neg hk, if_neg, h]
        rintro ⟨_, _, h'⟩
        exact hid (Option.some.inj (h.symm.trans h'))
  displaced := by
    intro id' hid
    rw [displaced_move hne] at hid
    constructor
    · intro e' c' h
      rcases slotIn?_move_cases hr (hs.slotIn?_inj hr) h with ⟨-, -, hid'⟩ | ⟨hk, -, h⟩
      · subst hid'
        exact hne (hs.slotIn?_inj hid hr).2
      · exact hk (hs.slotIn?_inj h hid)
    · rw [handle?_move]
      exact hs.exists_handle hc hid
  closing := by
    intro x hx
    have hx' : g.closing = some x := hx
    rw [hc] at hx'
    cases hx'

theorem Accounted.move (hs : g.Accounted) : (g.move now r e source id).Accounted :=
  hs.of_handle? handle?_move (List.prefix_refl _) rfl rfl rfl

end move

/-! ### A slot is closed -/

section close
variable {g : Stage} {c : Closing}

theorem Indexed.take (hs : g.Indexed) : (g.take c).Indexed where
  homes := hs.homes
  places := by simp [Stage.take, State.beginClosing, State.mapSlot, hs.places]
  known := hs.known
  home := hs.home
  keys := hs.keys

theorem handle?_take (id : Nat) :
    (g.take c).state.handle? id = if c.slot = id then none else g.state.handle? id :=
  State.handle?_beginClosing c id

theorem Placed.take (hs : g.Placed) (ho : g.state.owner? c.slot = some c.owner)
    (hp : g.places[c.slot]? = some c.entry) (hd : g.displaced = none ∨ g.displaced = some c.slot)
    (hc : g.closing = none) : (g.take c).Placed := by
  refine ⟨hs.place, fun e c' id h => ?_, fun e c' id h => ?_, fun id x hx => ?_,
    fun id hid => (by cases hid), fun x hx => ?_⟩
  · exact (State.owner?_beginClosing c id).trans (hs.owner e c' id h)
  · by_cases hid : c.slot = id
    · exact .inr ⟨c, rfl, hid⟩
    · rw [handle?_take, if_neg hid]
      exact .inl (hs.exists_handle hc h)
  · rw [handle?_take] at hx
    split at hx
    · cases hx
    · rename_i hid
      rcases hs.kept id x hx with hreg | hdisp
      · exact .inl hreg
      · rcases hd with hd | hd
        · rw [hd] at hdisp
          cases hdisp
        · rw [hd] at hdisp
          exact absurd (Option.some.inj hdisp) hid
  · cases hx
    refine ⟨?_, (State.owner?_beginClosing c c.slot).trans ho, hp⟩
    rw [handle?_take, if_pos rfl]

theorem Accounted.take (hs : g.Accounted) (hh : g.state.handle? c.slot = some c.handle) :
    (g.take c).Accounted := by
  have hkept : ∀ {id x}, (g.take c).state.handle? id = some x →
      c.slot ≠ id ∧ g.state.handle? id = some x := by
    intro id x hx
    rw [handle?_take] at hx
    split at hx
    · cases hx
    · rename_i hid
      exact ⟨hid, hx⟩
  have hcount : g.disconnected.count c.handle = 0 := List.count_eq_zero.mpr (hs.unasked _ _ hh)
  refine ⟨hs.nodup, fun id x hx => hs.held id x (hkept hx).2,
    fun id other x hx hy => hs.once id other x (hkept hx).2 (hkept hy).2, fun id x hx => ?_,
    fun p hp => ?_, fun x hx => ?_⟩
  · obtain ⟨hid, hx⟩ := hkept hx
    show x ∉ g.disconnected ++ [c.handle]
    rw [List.mem_append, not_or, List.mem_singleton]
    refine ⟨hs.unasked id x hx, ?_⟩
    rintro rfl
    exact hid (hs.once _ _ _ hh hx)
  · show _ ∨ (g.disconnected ++ [c.handle]).count p.2 = 1
    rw [List.count_append]
    by_cases hpc : p.2 = c.handle
    · right
      rw [hpc, hcount]
      simp
    · have hsingle : [c.handle].count p.2 = 0 :=
        List.count_eq_zero.mpr fun hm => hpc (List.mem_singleton.mp hm)
      rcases hs.asked p hp with ⟨id, hid⟩ | hone
      · refine .inl ⟨id, ?_⟩
        rw [handle?_take, if_neg, hid]
        rintro rfl
        exact hpc (Option.some.inj (hid.symm.trans hh))
      · right
        omega
  · rcases List.mem_append.mp hx with hx | hx
    · exact hs.past x hx
    · obtain ⟨_, i, _, _, ho⟩ := hs.held _ _ hh
      rw [List.mem_singleton.mp hx]
      exact ⟨i, ho⟩

theorem Indexed.finish (hs : g.Indexed) (failure : Option LeaseError) :
    (g.finish c failure).Indexed where
  homes := by
    show _ = (g.state.finishClosing c failure).registry.entries.length
    rw [State.registry_finishClosing, Registry.detach, Registry.length_mapEntry]
    exact hs.homes
  places := by
    show g.places.length = (g.state.finishClosing c failure).slots.length
    rw [State.slots_finishClosing]
    simpa [State.mapSlot] using hs.places
  known := by
    show (Keyed.keys (g.state.finishClosing c failure).registry.known).Nodup
    rw [State.registry_finishClosing]
    exact hs.known
  home := by
    show ∀ p ∈ (g.state.finishClosing c failure).registry.known, _
    rw [State.registry_finishClosing]
    exact hs.home
  keys := by
    show (g.state.finishClosing c failure).registry.KeysDistinct
    rw [State.registry_finishClosing]
    exact hs.keys.detach _ _

theorem Placed.slotIn?_finish (hs : g.Placed) (hc : g.closing = some c)
    {failure : Option LeaseError} {e id : Nat} {d : ContextId}
    (h : (g.finish c failure).state.slotIn? e d = some id) :
    g.state.slotIn? e d = some id ∧ id ≠ c.slot := by
  obtain ⟨-, howner, hplace⟩ := hs.closing c hc
  have h' : (g.state.finishClosing c failure).slotIn? e d = some id := h
  rw [State.slotIn?_finishClosing] at h'
  split at h'
  · cases h'
  · rename_i hk
    refine ⟨h', ?_⟩
    rintro rfl
    have hee : some c.entry = some e := hplace.symm.trans (hs.place e d _ h')
    have hdd : some c.owner = some d := howner.symm.trans (hs.owner e d _ h')
    exact hk ⟨Option.some.inj hee, Option.some.inj hdd, h'⟩

theorem Placed.finish (hs : g.Placed) (hc : g.closing = some c) (failure : Option LeaseError) :
    (g.finish c failure).Placed := by
  obtain ⟨hnone, -, -⟩ := hs.closing c hc
  have hreg : ∀ {e d id}, (g.finish c failure).state.slotIn? e d = some id →
      g.state.slotIn? e d = some id ∧ id ≠ c.slot := hs.slotIn?_finish hc
  have hhandle : ∀ id, (g.finish c failure).state.handle? id = g.state.handle? id :=
    State.handle?_finishClosing c failure
  refine ⟨fun e d id h => hs.place e d id (hreg h).1, fun e d id h => ?_, fun e d id h => ?_,
    fun id x hx => ?_, fun id hid => ?_, fun x hx => (by cases hx)⟩
  · exact (State.owner?_finishClosing c failure id).trans (hs.owner e d id (hreg h).1)
  · rw [hhandle]
    rcases hs.live e d id (hreg h).1 with hl | ⟨x, hx, hxs⟩
    · exact .inl hl
    · rw [hc] at hx
      cases hx
      exact absurd hxs.symm (hreg h).2
  · rw [hhandle] at hx
    rcases hs.kept id x hx with ⟨e, d, h⟩ | hdisp
    · refine .inl ⟨e, d, ?_⟩
      refine (State.slotIn?_finishClosing c failure e d).trans ?_
      rw [if_neg, h]
      rintro ⟨_, _, h'⟩
      rw [Option.some.inj (h.symm.trans h'), hnone] at hx
      cases hx
    · exact .inr hdisp
  · rw [hhandle]
    exact ⟨fun e d h => (hs.displaced id hid).1 e d (hreg h).1, (hs.displaced id hid).2⟩

theorem Accounted.finish (hs : g.Accounted) (failure : Option LeaseError) :
    (g.finish c failure).Accounted :=
  hs.of_handle? (State.handle?_finishClosing c failure) (List.prefix_refl _) rfl rfl rfl

end close

/-! ### The registry by itself -/

section registry
variable {g : Stage}

theorem Indexed.withRegistry (hs : g.Indexed) {r : Registry} {claim : Option Nat}
    (hl : r.entries.length = g.state.registry.entries.length)
    (hk : (Keyed.keys r.known).Nodup) (hr : ∀ p ∈ r.known, p ∈ g.state.registry.known)
    (hd : r.KeysDistinct) : { g.withRegistry r with claim }.Indexed where
  homes := hs.homes.trans hl.symm
  places := hs.places
  known := hk
  home p hp := hs.home p (hr p hp)
  keys := hd

theorem Indexed.know (hs : g.Indexed) {i : Identity} (h : g.state.registry.entryId? i = none) :
    { g.withRegistry (g.state.registry.ensure i).1 with homes := g.homes ++ [i] }.Indexed := by
  refine ⟨?_, hs.places, ?_, fun p hp => ?_, hs.keys.ensure⟩
  · show (g.homes ++ [i]).length = (g.state.registry.ensure i).1.entries.length
    simp [Registry.ensure_of_none h, hs.homes]
  · show (Keyed.keys (g.state.registry.ensure i).1.known).Nodup
    rw [Registry.ensure_of_none h]
    exact Keyed.nodup_put hs.known _ _
  · have hp' : p ∈ (g.state.registry.ensure i).1.known := hp
    rw [Registry.ensure_of_none h] at hp'
    rcases Keyed.mem_put hp' with rfl | hp'
    · show (g.homes ++ [i])[g.state.registry.entries.length]? = some i
      rw [← hs.homes]
      simp
    · exact getElem?_of_isPrefix (List.prefix_append _ _) (hs.home p hp')

end registry

end Stage

theorem Change.indexed {calm : Prop} {k : Command} {now : Nat} {g g' : Stage}
    (h : Change calm k now g g') (hs : g.Indexed) : g'.Indexed := by
  cases h with
  | silent observers ledger journal => exact ⟨hs.1, hs.2, hs.3, hs.4, hs.5⟩
  | know i hi => exact hs.know hi
  | claim i e hi room hg =>
    exact hs.withRegistry (Registry.length_mapEntry _ _ _) hs.known (fun _ hp => hp) hs.keys.claim
  | cancel e hg =>
    exact hs.withRegistry (Registry.length_mapEntry _ _ _) hs.known (fun _ hp => hp) hs.keys.cancel
  | register r e h hk hg hd he hh => exact hs.register
  | idle id hi => exact ⟨hs.1, hs.2.trans (List.length_modify ..).symm, hs.3, hs.4, hs.5⟩
  | lend r id hk hi => exact ⟨hs.1, hs.2.trans (List.length_modify ..).symm, hs.3, hs.4, hs.5⟩
  | move r e source id hk hr hd hne he ho hl => exact hs.move
  | take c hh ho hp hd hw hc => exact hs.take
  | finish c failure hc => exact hs.finish failure
  | forget i e hf =>
    exact hs.withRegistry rfl (Keyed.nodup_erase hs.known i)
      (fun _ hp => (List.mem_filter.mp hp).1) hs.keys
  | drain hk =>
    exact hs.withRegistry rfl List.nodup_nil (fun _ hp => (by cases hp)) hs.keys

/-- **Every change is sound.** -/
theorem Change.sound {calm : Prop} (hcalm : calm) {k : Command} {now : Nat} {g g' : Stage}
    (h : Change calm k now g g') (hs : g.Sound) : g'.Sound := by
  have hi := h.indexed hs.indexed
  have alike : g.Alike g' → g'.Sound := fun ha =>
    ⟨hi, hs.placed.alike ha, hs.accounted.alike ha⟩
  cases h with
  | silent observers ledger journal =>
    exact alike ⟨fun _ _ => rfl, fun _ => rfl, fun _ => rfl, List.prefix_refl _, rfl, rfl, rfl,
      rfl, rfl⟩
  | know i hn =>
    exact alike (g.alike_withRegistry (fun e c => Registry.slotIn?_ensure e c)
      (List.prefix_append _ _))
  | claim i e hn room hg =>
    exact alike (g.alike_withRegistry (fun e c => Registry.slotIn?_claim e c) (List.prefix_refl _))
  | cancel e hg =>
    exact alike (g.alike_withRegistry (fun e c => Registry.slotIn?_cancel e c) (List.prefix_refl _))
  | register r e x hk hg hd he hh =>
    exact ⟨hi, hs.placed.register hs.indexed (hd hcalm).1 (hd hcalm).2 (he hcalm),
      hs.accounted.register hs.indexed (he hcalm) (hh hcalm)⟩
  | idle id hi => exact alike (g.alike_mapSlot id (fun _ => rfl) fun _ => rfl)
  | lend r id hk hi => exact alike (g.alike_mapSlot id (fun _ => rfl) fun _ => rfl)
  | move r e source id hk hr hd hne he ho hl =>
    exact ⟨hi, hs.placed.move hr (hd hcalm).1 (hd hcalm).2 (hne hcalm)
      (Option.isSome_iff_exists.mp (ho hcalm)), hs.accounted.move⟩
  | take c hh ho hp hd hw hc =>
    exact ⟨hi, hs.placed.take (ho hcalm) (hp hcalm) (hd hcalm) (hc hcalm),
      hs.accounted.take (hh hcalm)⟩
  | finish c failure hc => exact ⟨hi, hs.placed.finish hc failure, hs.accounted.finish failure⟩
  | forget i e hf => exact alike (g.alike_withRegistry (fun _ _ => rfl) (List.prefix_refl _))
  | drain hk => exact alike (g.alike_withRegistry (fun _ _ => rfl) (List.prefix_refl _))

theorem Trail.sound {calm : Prop} (hcalm : calm) {k : Command} {now : Nat} {g g' : Stage}
    (h : Trail calm k now g g') (hs : g.Sound) : g'.Sound := by
  induction h with
  | refl => exact hs
  | tail _ step ih => exact step.sound hcalm ih

end ConnectionLeasing.Affine

import ConnectionLeasing.Proofs.Affine.Forgetting

/-!
# What a manager holds for one identity

A `Holding` is all that a manager keeps for one identity, without the numbers that it uses inside:
the slots by context, in the order of their enumeration, and the connections on their way. An
operation for an identity turns the holding of this identity into another and leaves the holdings of
all others as they are (`State.Turns`).

The manager is taken to be upright. Each way in which an operation writes to the tables is one
lemma, and keeps it so.
-/

namespace ConnectionLeasing

/-! ### Ledgers -/

/-- Two ledgers taken together. -/
def Ledger.add (l l' : Ledger) : Ledger where
  borrowed := l.borrowed + l'.borrowed
  reused := l.reused + l'.reused
  stolen := l.stolen + l'.stolen
  created := l.created + l'.created
  released := l.released + l'.released
  closed := l.closed + l'.closed
  evictedReleased := l.evictedReleased + l'.evictedReleased
  evictedClosed := l.evictedClosed + l'.evictedClosed
  overLimit := l.overLimit + l'.overLimit
  disconnectFailures := l.disconnectFailures + l'.disconnectFailures

@[simp] theorem Ledger.empty_add (l : Ledger) : ({} : Ledger).add l = l := by
  simp [add]

theorem Ledger.add_assoc (a b c : Ledger) : (a.add b).add c = a.add (b.add c) := by
  simp only [add, Nat.add_assoc]

theorem Ledger.add_comm (a b : Ledger) : a.add b = b.add a := by
  simp only [add, Nat.add_comm]

/-! ### Holdings -/

/-- A slot that is open under its context. -/
structure OpenSlot where
  handle : Handle
  borrowed : Bool
  borrowTime : Nat
  releaseTime : Nat

namespace OpenSlot

/-- A freshly opened connection, lent out. -/
def lent (handle : Handle) (now : Nat) : OpenSlot := ⟨handle, true, now, now⟩

def markBorrowed (x : OpenSlot) (now : Nat) : OpenSlot :=
  { x with borrowed := true, borrowTime := now }

def markIdle (x : OpenSlot) (now : Nat) : OpenSlot :=
  { x with borrowed := false, releaseTime := now }

end OpenSlot

/-- A slot as it shows under a context. -/
def Slot.under? (x : Slot) (c : ContextId) : Option OpenSlot :=
  (x.openFor c).map fun h => ⟨h, x.borrowed, x.borrowTime, x.releaseTime⟩

namespace Slot

theorem under?_markIdle (x : Slot) (c : ContextId) (now : Nat) :
    (x.markIdle now).under? c = (x.under? c).map (·.markIdle now) := by
  rw [under?, under?, Option.map_map]
  rfl

theorem under?_markBorrowed (x : Slot) (c : ContextId) (now : Nat) :
    (x.markBorrowed now).under? c = (x.under? c).map (·.markBorrowed now) := by
  rw [under?, under?, Option.map_map]
  rfl

theorem under?_takenOver {x : Slot} {source : ContextId} {y : OpenSlot}
    (h : x.under? source = some y) (c : ContextId) (now : Nat) :
    (x.takenOver c now).under? c = some (y.markBorrowed now) := by
  obtain ⟨g, hopen, rfl⟩ := Option.map_eq_some_iff.mp h
  have htaken : (x.takenOver c now).openFor c = some g :=
    openFor_eq_some.mpr ⟨rfl, (openFor_eq_some.mp hopen).2⟩
  rw [under?, htaken]
  rfl

theorem under?_lentTo (c : ContextId) (h : Handle) (now : Nat) :
    (lentTo c h now).under? c = some (.lent h now) := by
  have hopen : (lentTo c h now).openFor c = some h := openFor_eq_some.mpr ⟨rfl, rfl⟩
  rw [under?, hopen]
  rfl

end Slot

/-- What is kept for one identity. -/
structure Holding where
  /-- Whether the identity is known; nothing is kept for one that is not. -/
  known : Bool := false
  slots : List (ContextId × OpenSlot) := []
  /-- Connections being opened that are not registered yet. -/
  pending : Nat := 0

namespace Holding

/-- The slot of a context. -/
def slot? (h : Holding) (c : ContextId) : Option OpenSlot := Keyed.get? h.slots c

/-- Gives a context a slot. -/
def write (h : Holding) (c : ContextId) (x : OpenSlot) : Holding :=
  { h with slots := Keyed.put h.slots c x }

/-- Takes the slot of a context away. -/
def remove (h : Holding) (c : ContextId) : Holding := { h with slots := Keyed.erase h.slots c }

/-- The identity becomes known. -/
def welcome (h : Holding) : Holding := { h with known := true }

/-- All handles have numbers below `n`. -/
def Below (h : Holding) (n : Nat) : Prop := ∀ p ∈ h.slots, p.2.handle.number < n

theorem Below.write {h : Holding} {n : Nat} (hh : h.Below n) (c : ContextId) {x : OpenSlot}
    (hx : x.handle.number < n) : (h.write c x).Below n := fun p hp => by
  rcases Keyed.mem_put hp with rfl | hp
  · exact hx
  · exact hh p hp

theorem Below.remove {h : Holding} {n : Nat} (hh : h.Below n) (c : ContextId) :
    (h.remove c).Below n := fun p hp => hh p (List.mem_of_mem_filter hp)

theorem Below.slot? {h : Holding} {n : Nat} (hh : h.Below n) {c : ContextId} {x : OpenSlot}
    (hx : h.slot? c = some x) : x.handle.number < n :=
  hh (c, x) (Keyed.mem_of_get? hx)

end Holding

namespace Affine

namespace State

/-- The slot with a number, as it shows under a context. -/
def openSlot? (s : State) (k : ContextId × Nat) : Option OpenSlot :=
  (s.slot? k.2).bind (·.under? k.1)

/-- Keyed slot numbers with the slots themselves. -/
def shown (s : State) (l : List (ContextId × Nat)) : List (ContextId × OpenSlot) :=
  l.filterMap fun k => (s.openSlot? k).map fun x => (k.1, x)

/-- What is kept for an identity. -/
def holding (s : State) (i : Identity) : Holding :=
  match s.registry.entryId? i with
  | none => {}
  | some e => { known := true, slots := s.shown (s.slotsOf e), pending := s.registry.pendingIn e }

variable {s s' : State} {i : Identity} {e id : Nat} {c : ContextId} {x : OpenSlot}

theorem holding_of_some (he : s.registry.entryId? i = some e) : s.holding i =
    { known := true, slots := s.shown (s.slotsOf e), pending := s.registry.pendingIn e } := by
  rw [holding, he]

theorem slots_holding (he : s.registry.entryId? i = some e) :
    (s.holding i).slots = s.shown (s.slotsOf e) := by
  rw [holding_of_some he]

theorem holding_of_none (hi : s.registry.entryId? i = none) : s.holding i = {} := by
  rw [holding, hi]

theorem openSlot?_eq_some {k : ContextId × Nat} (hx : s.openSlot? k = some x) :
    ∃ y, s.slot? k.2 = some y ∧ y.owner = k.1 ∧ y.handle = some x.handle ∧
      y.borrowed = x.borrowed ∧ y.borrowTime = x.borrowTime ∧ y.releaseTime = x.releaseTime := by
  obtain ⟨y, hy, hunder⟩ := Option.bind_eq_some_iff.mp hx
  obtain ⟨h, hopen, rfl⟩ := Option.map_eq_some_iff.mp hunder
  obtain ⟨howner, hhandle⟩ := Slot.openFor_eq_some.mp hopen
  exact ⟨y, hy, howner, hhandle, rfl, rfl, rfl⟩

theorem isLent_of_openSlot? {c : ContextId} {id : Nat} (hx : s.openSlot? (c, id) = some x) :
    s.isLent id = x.borrowed := by
  obtain ⟨y, hy, -, -, hborrowed, -⟩ := openSlot?_eq_some hx
  rw [isLent, hy]
  exact hborrowed

theorem verdict_of_openSlot? {c : ContextId} {id : Nat} (hx : s.openSlot? (c, id) = some x)
    (now : Nat) :
    (s.slot? id).map (fun y => s.policy.verdict y.borrowed y.borrowTime y.releaseTime now) =
      some (s.policy.verdict x.borrowed x.borrowTime x.releaseTime now) := by
  obtain ⟨y, hy, -, -, hborrowed, hlent, hreleased⟩ := openSlot?_eq_some hx
  rw [hy, ← hborrowed, ← hlent, ← hreleased]
  rfl

theorem openHandle?_of_openSlot? {k : ContextId × Nat} (hx : s.openSlot? k = some x) :
    s.openHandle? k.1 k.2 = some x.handle := by
  obtain ⟨y, hy, howner, hhandle, -⟩ := openSlot?_eq_some hx
  exact Option.bind_eq_some_iff.mpr ⟨y, hy, Slot.openFor_eq_some.mpr ⟨howner, hhandle⟩⟩

theorem exists_openSlot? {k : ContextId × Nat} {h : Handle}
    (hk : s.openHandle? k.1 k.2 = some h) : ∃ x, s.openSlot? k = some x := by
  obtain ⟨y, hy, hopen⟩ := Option.bind_eq_some_iff.mp hk
  exact ⟨_, Option.bind_eq_some_iff.mpr ⟨y, hy, Option.map_eq_some_iff.mpr ⟨h, hopen, rfl⟩⟩⟩

theorem openSlot?_congr {k : ContextId × Nat} (h : s'.slot? k.2 = s.slot? k.2) :
    s'.openSlot? k = s.openSlot? k := by
  rw [openSlot?, h, openSlot?]

/-! ### The slots shown -/

section shown
variable {l : List (ContextId × Nat)}

theorem shown_congr (h : ∀ k ∈ l, s'.slot? k.2 = s.slot? k.2) : s'.shown l = s.shown l :=
  List.filterMap_congr fun k hk => by rw [openSlot?_congr (h k hk)]

theorem shown_cons {k : ContextId × Nat} (hk : s.openSlot? k = some x) :
    s.shown (k :: l) = (k.1, x) :: s.shown l := by
  rw [shown, List.filterMap_cons_some (b := (k.1, x)) (by rw [hk]; rfl), shown]

/-- All slots are open under their keys. -/
def Present (s : State) (l : List (ContextId × Nat)) : Prop := ∀ k ∈ l, ∃ x, s.openSlot? k = some x

theorem keys_shown (hl : s.Present l) : Keyed.keys (s.shown l) = Keyed.keys l := by
  induction l with
  | nil => rfl
  | cons k l ih =>
    obtain ⟨x, hx⟩ := hl k List.mem_cons_self
    rw [shown_cons hx, Keyed.keys_cons, Keyed.keys_cons,
      ih fun k' hk' => hl k' (List.mem_cons_of_mem _ hk')]

theorem length_shown (hl : s.Present l) : (s.shown l).length = l.length := by
  rw [← Keyed.length_keys, keys_shown hl, Keyed.length_keys]

theorem get?_shown (hl : s.Present l) (c : ContextId) :
    Keyed.get? (s.shown l) c = (Keyed.get? l c).bind fun id => s.openSlot? (c, id) := by
  induction l with
  | nil => rfl
  | cons k l ih =>
    obtain ⟨x, hx⟩ := hl k List.mem_cons_self
    rw [shown_cons hx, Keyed.get?, Keyed.get?]
    split
    · rename_i hk
      rw [Option.bind_some, ← hk]
      exact hx.symm
    · exact ih fun k' hk' => hl k' (List.mem_cons_of_mem _ hk')

theorem shown_erase (l : List (ContextId × Nat)) (c : ContextId) :
    s.shown (Keyed.erase l c) = Keyed.erase (s.shown l) c := by
  rw [shown, Keyed.erase, Keyed.erase, shown, List.filterMap_filter, List.filter_filterMap]
  refine List.filterMap_congr fun k _ => ?_
  cases s.openSlot? k <;> by_cases hk : k.1 = c <;> simp [hk, Option.filter]

theorem shown_of_changed (hl : s.Present l) (hkeys : (Keyed.keys l).Nodup)
    (hids : (l.map (·.2)).Nodup) (hmem : (c, id) ∈ l) (hx : s'.openSlot? (c, id) = some x)
    (hothers : ∀ k ∈ l, k.2 ≠ id → s'.slot? k.2 = s.slot? k.2) :
    s'.shown l = Keyed.put (s.shown l) c x := by
  induction l with
  | nil => cases hmem
  | cons k l ih =>
    obtain ⟨y, hy⟩ := hl k List.mem_cons_self
    rw [Keyed.keys_cons, List.nodup_cons] at hkeys
    rw [List.map_cons, List.nodup_cons] at hids
    rw [shown_cons hy]
    rcases List.mem_cons.mp hmem with rfl | hmem
    · rw [shown_cons hx, Keyed.put, if_pos rfl, shown_congr fun k' hk' => ?_]
      exact hothers k' (List.mem_cons_of_mem _ hk') fun heq =>
        hids.1 (List.mem_map.mpr ⟨k', hk', heq⟩)
    · have hkey : k.1 ≠ c := fun heq => hkeys.1 (heq ▸ Keyed.mem_keys hmem)
      have hid : k.2 ≠ id := fun heq => hids.1 (heq ▸ List.mem_map_of_mem hmem)
      have hsame := openSlot?_congr (hothers k List.mem_cons_self hid)
      rw [shown_cons (hsame.trans hy), Keyed.put, if_neg hkey,
        ih (fun k' hk' => hl k' (List.mem_cons_of_mem _ hk')) hkeys.2 hids.2 hmem
          fun k' hk' => hothers k' (List.mem_cons_of_mem _ hk')]

theorem shown_put (hl : s.Present l) (hc : c ∉ Keyed.keys l) (hx : s.openSlot? (c, id) = some x) :
    s.shown (Keyed.put l c id) = Keyed.put (s.shown l) c x := by
  rw [Keyed.put_of_not_mem hc, Keyed.put_of_not_mem (by rwa [keys_shown hl]), shown,
    List.filterMap_append, List.filterMap_cons_some (b := (c, x)) (by rw [hx]; rfl)]
  rfl

end shown

theorem Live.present (hs : s.Live e) : s.Present (s.slotsOf e) := fun k hk => by
  obtain ⟨h, hopen⟩ := hs.opened k hk
  exact exists_openSlot? hopen

theorem Upright.mem_known (hs : s.Upright) (k : Identity × Nat) :
    k ∈ s.registry.known ↔ s.registry.entryId? k.1 = some k.2 :=
  (Keyed.get?_eq_some_iff hs.identities k.1 k.2).symm

theorem Upright.live_of_some (hs : s.Upright) (he : s.registry.entryId? i = some e) : s.Live e :=
  hs.live ((hs.mem_known (i, e)).mpr he)

theorem Upright.slot?_holding (hs : s.Upright) (he : s.registry.entryId? i = some e)
    (c : ContextId) :
    (s.holding i).slot? c = (s.slotIn? e c).bind fun id => s.openSlot? (c, id) := by
  rw [holding_of_some he]
  exact get?_shown (hs.live_of_some he).present c

theorem Upright.mem_slots_holding (hs : s.Upright) {k : Identity × Nat}
    (hk : k ∈ s.registry.known) {p : ContextId × Nat} (hp : p ∈ s.slotsOf k.2) :
    ∃ x, s.openSlot? p = some x ∧ (p.1, x) ∈ (s.holding k.1).slots := by
  obtain ⟨x, hx⟩ := (hs.live hk).present p hp
  refine ⟨x, hx, ?_⟩
  rw [slots_holding ((hs.mem_known k).mp hk)]
  exact List.mem_filterMap.mpr ⟨p, hp, by rw [hx]; rfl⟩

/-! ### What an operation makes of a holding -/

/-- The holding of one identity becomes `h`, and `l` is booked. All other holdings stay. -/
structure Turns (s : State) (i : Identity) (h : Holding) (l : Ledger) (s' : State) : Prop where
  upright : s'.Upright
  settings : s'.settings = s.settings
  factory : s'.factory = s.factory
  observers : s'.observers = s.observers
  ledger : s'.ledger = s.ledger.add l
  holding : s'.holding i = h
  others : ∀ j, j ≠ i → s'.holding j = s.holding j

theorem Turns.trans {s'' : State} {h h' : Holding} {l l' : Ledger} (ht : s.Turns i h l s')
    (ht' : s'.Turns i h' l' s'') : s.Turns i h' (l.add l') s'' where
  upright := ht'.upright
  settings := ht'.settings.trans ht.settings
  factory := ht'.factory.trans ht.factory
  observers := ht'.observers.trans ht.observers
  ledger := by rw [ht'.ledger, ht.ledger, Ledger.add_assoc]
  holding := ht'.holding
  others j hj := (ht'.others j hj).trans (ht.others j hj)

theorem holding_congr (hregistry : s'.registry = s.registry) (hslots : s'.slots = s.slots)
    (j : Identity) : s'.holding j = s.holding j := by
  have hslot : ∀ id, s'.slot? id = s.slot? id := fun id => by rw [slot?, slot?, hslots]
  rw [holding, holding, hregistry]
  cases s.registry.entryId? j with
  | none => rfl
  | some e =>
    dsimp only
    rw [slotsOf, slotsOf, hregistry, shown_congr fun k _ => hslot k.2]

theorem Upright.quiet (hs : s.Upright) (i : Identity) (l : Ledger) (journal : Journal) :
    s.Turns i (s.holding i) l { s with ledger := s.ledger.add l, journal } where
  upright := ⟨hs.identities, hs.entries, hs.made, hs.contexts, hs.opened, hs.handles⟩
  settings := rfl
  factory := rfl
  observers := rfl
  ledger := rfl
  holding := holding_congr rfl rfl i
  others j _ := holding_congr rfl rfl j

/-- What is written to the tables for one identity: its entry has other slots, and the slots of
other identities are what they were. -/
structure Rewrites (s : State) (i : Identity) (e : Nat) (slots : List (ContextId × Nat))
    (s' : State) : Prop where
  known : s.registry.entryId? i = some e
  settings : s'.settings = s.settings
  factory : s'.factory = s.factory
  observers : s'.observers = s.observers
  ledger : s'.ledger = s.ledger
  identities : s'.registry.known = s.registry.known
  made : s'.registry.entries.length = s.registry.entries.length
  entry : s'.registry.entry e = { s.registry.entry e with slots }
  others : ∀ o, o ≠ e → s'.registry.entry o = s.registry.entry o
  elsewhere : ∀ k ∈ s.registry.known, k.2 ≠ e → ∀ p ∈ s.slotsOf k.2, s'.slot? p.2 = s.slot? p.2

section rewrites
variable {slots : List (ContextId × Nat)}

theorem Rewrites.slotsOf (h : s.Rewrites i e slots s') : s'.slotsOf e = slots := by
  rw [State.slotsOf, h.entry]

theorem Rewrites.slotsOf_of_ne (h : s.Rewrites i e slots s') {o : Nat} (ho : o ≠ e) :
    s'.slotsOf o = s.slotsOf o := by
  rw [State.slotsOf, h.others o ho, State.slotsOf]

theorem Rewrites.holding_of_ne (hs : s.Upright) (h : s.Rewrites i e slots s') {j : Identity}
    (hj : j ≠ i) : s'.holding j = s.holding j := by
  have hsame : s'.registry.entryId? j = s.registry.entryId? j := by
    rw [Registry.entryId?, h.identities, Registry.entryId?]
  cases hf : s.registry.entryId? j with
  | none => rw [holding_of_none hf, holding_of_none (hsame.trans hf)]
  | some f =>
    have hmem := (hs.mem_known (j, f)).mpr hf
    have hne : f ≠ e := fun heq =>
      hj (congrArg Prod.fst (hs.entry_inj hmem ((hs.mem_known (i, e)).mpr h.known) heq))
    rw [holding_of_some hf, holding_of_some (hsame.trans hf), h.slotsOf_of_ne hne,
      shown_congr fun k hk => h.elsewhere (j, f) hmem hne k hk, Registry.pendingIn,
      Registry.pendingIn, h.others f hne]

/-- The manager stays upright if the slots that the entry has now are open under their keys and
have handles of their own. -/
theorem Rewrites.turns (hs : s.Upright) (h : s.Rewrites i e slots s')
    (hkeys : (Keyed.keys slots).Nodup) (hopened : ∀ p ∈ slots, ∃ g, s'.openHandle? p.1 p.2 = some g)
    (hown : ∀ p ∈ slots, ∀ p' ∈ slots, s'.handle? p.2 = s'.handle? p'.2 → p = p')
    (hother : ∀ p ∈ slots, ∀ k ∈ s.registry.known, k.2 ≠ e → ∀ p' ∈ s.slotsOf k.2,
      s'.handle? p.2 ≠ s.handle? p'.2)
    {l : List (ContextId × OpenSlot)} (hl : s'.shown slots = l) :
    s.Turns i { s.holding i with slots := l } {} s' := by
  have hhandle : ∀ k ∈ s.registry.known, k.2 ≠ e → ∀ p ∈ s.slotsOf k.2,
      s'.handle? p.2 = s.handle? p.2 := fun k hk hne p hp => by
    rw [handle?, h.elsewhere k hk hne p hp, handle?]
  have hmem : (i, e) ∈ s.registry.known := (hs.mem_known (i, e)).mpr h.known
  have hentry : ∀ {k}, k ∈ s.registry.known → k.2 = e → k = (i, e) := fun hk heq =>
    hs.entry_inj hk hmem heq
  refine ⟨⟨by rw [h.identities]; exact hs.identities, by rw [h.identities]; exact hs.entries,
    fun k hk => ?_, fun k hk => ?_, fun k hk p hp => ?_, fun k hk k' hk' p hp p' hp' heq => ?_⟩,
    h.settings, h.factory, h.observers, h.ledger, ?_, fun j hj => h.holding_of_ne hs hj⟩
  · rw [h.made]
    exact hs.made k (h.identities ▸ hk)
  · rw [h.identities] at hk
    by_cases hne : k.2 = e
    · rw [hne, h.slotsOf]
      exact hkeys
    · rw [h.slotsOf_of_ne hne]
      exact hs.contexts k hk
  · rw [h.identities] at hk
    by_cases hne : k.2 = e
    · rw [hne, h.slotsOf] at hp
      exact hopened p hp
    · rw [h.slotsOf_of_ne hne] at hp
      rw [openHandle?, h.elsewhere k hk hne p hp]
      exact hs.opened k hk p hp
  · rw [h.identities] at hk hk'
    by_cases hne : k.2 = e <;> by_cases hne' : k'.2 = e
    · rw [hne, h.slotsOf] at hp
      rw [hne', h.slotsOf] at hp'
      exact ⟨(hentry hk hne).trans (hentry hk' hne').symm, hown p hp p' hp' heq⟩
    · rw [hne, h.slotsOf] at hp
      rw [h.slotsOf_of_ne hne'] at hp'
      rw [hhandle k' hk' hne' p' hp'] at heq
      exact absurd heq (hother p hp k' hk' hne' p' hp')
    · rw [h.slotsOf_of_ne hne] at hp
      rw [hne', h.slotsOf] at hp'
      rw [hhandle k hk hne p hp] at heq
      exact absurd heq.symm (hother p' hp' k hk hne p hp)
    · rw [h.slotsOf_of_ne hne] at hp
      rw [h.slotsOf_of_ne hne'] at hp'
      rw [hhandle k hk hne p hp, hhandle k' hk' hne' p' hp'] at heq
      exact hs.handles k hk k' hk' p hp p' hp' heq
  · have hsame : s'.registry.entryId? i = some e := by
      rw [Registry.entryId?, h.identities]
      exact h.known
    rw [holding_of_some h.known, holding_of_some hsame, h.slotsOf, hl, Registry.pendingIn, h.entry]
    rfl

/-- A slot is put beside slots that the entry had before, and those are as they were. The manager
stays upright if no open connection had the handle of the slot that is put. -/
theorem Rewrites.turns_put (hs : s.Upright) {id : Nat}
    (h : s.Rewrites i e (Keyed.put slots c id) s') (hsub : slots.Sublist (s.slotsOf e))
    (hc : c ∉ Keyed.keys slots) (hsame : ∀ p ∈ slots, s'.slot? p.2 = s.slot? p.2)
    (hself : s'.openSlot? (c, id) = some x)
    (hnew : ∀ k ∈ s.registry.known, ∀ p ∈ s.slotsOf k.2, (k.2 = e → p ∈ slots) →
      s.handle? p.2 ≠ s'.handle? id) :
    s.Turns i { s.holding i with slots := Keyed.put (s.shown slots) c x } {} s' := by
  have hlive := hs.live_of_some h.known
  have hknown := (hs.mem_known (i, e)).mpr h.known
  have hkeys : (Keyed.keys slots).Nodup := (hsub.map _).nodup hlive.keys
  have hhandle : ∀ p ∈ slots, s'.handle? p.2 = s.handle? p.2 := fun p hp => by
    rw [handle?, hsame p hp, handle?]
  have hfresh : ∀ p ∈ slots, s.handle? p.2 ≠ s'.handle? id := fun p hp =>
    hnew _ hknown p (hsub.subset hp) fun _ => hp
  have hpresent : s'.Present slots := fun p hp => by
    rw [openSlot?_congr (hsame p hp)]
    exact hlive.present p (hsub.subset hp)
  refine h.turns hs (Keyed.nodup_put hkeys _ _) (fun p hp => ?_) (fun p hp p' hp' heq => ?_)
    (fun p hp k hk hne p' hp' heq => ?_) ?_
  · rcases Keyed.mem_put hp with rfl | hp
    · exact ⟨_, openHandle?_of_openSlot? hself⟩
    · rw [openHandle?, hsame p hp]
      exact hlive.opened p (hsub.subset hp)
  · rcases Keyed.mem_put hp with rfl | hp <;> rcases Keyed.mem_put hp' with rfl | hp'
    · rfl
    · rw [hhandle p' hp'] at heq
      exact absurd heq.symm (hfresh p' hp')
    · rw [hhandle p hp] at heq
      exact absurd heq (hfresh p hp)
    · rw [hhandle p hp, hhandle p' hp'] at heq
      exact (hs.handles _ hknown _ hknown p (hsub.subset hp) p' (hsub.subset hp') heq).2
  · rcases Keyed.mem_put hp with rfl | hp
    · exact hnew k hk p' hp' (fun heq => absurd heq hne) heq.symm
    · rw [hhandle p hp] at heq
      exact hne (congrArg Prod.snd (hs.handles _ hknown k hk p (hsub.subset hp) p' hp' heq).1).symm
  · rw [shown_put hpresent hc hself, shown_congr hsame]

end rewrites

/-! ### Ways to write to the tables -/

section writes
variable {h : Handle}

theorem Upright.ne_elsewhere (hs : s.Upright) (he : s.registry.entryId? i = some e)
    (hmem : (c, id) ∈ s.slotsOf e) {k : Identity × Nat} (hk : k ∈ s.registry.known) (hne : k.2 ≠ e)
    {p : ContextId × Nat} (hp : p ∈ s.slotsOf k.2) : id ≠ p.2 := fun heq =>
  hne (congrArg Prod.snd (hs.slot_inj hk ((hs.mem_known (i, e)).mpr he) hp hmem heq.symm).1)

theorem Live.of_mem_erase (hs : s.Live e) (hmem : (c, id) ∈ s.slotsOf e) {p : ContextId × Nat}
    (hp : p ∈ Keyed.erase (s.slotsOf e) c) : p ∈ s.slotsOf e ∧ id ≠ p.2 := by
  obtain ⟨hp, hkey⟩ := List.mem_filter.mp hp
  refine ⟨hp, fun heq => ?_⟩
  rw [← hs.inj hmem hp heq] at hkey
  exact of_decide_eq_true hkey rfl

theorem Upright.mark (hs : s.Upright) (he : s.registry.entryId? i = some e)
    (hmem : (c, id) ∈ s.slotsOf e) {f : Slot → Slot} (hh : ∀ y, (f y).handle = y.handle)
    (hx : (s.mapSlot id f).openSlot? (c, id) = some x) :
    s.Turns i ((s.holding i).write c x) {} (s.mapSlot id f) := by
  have hlive := hs.live_of_some he
  have hknown := (hs.mem_known (i, e)).mpr he
  have hrewrites : s.Rewrites i e (s.slotsOf e) (s.mapSlot id f) :=
    { known := he, settings := rfl, factory := rfl, observers := rfl, ledger := rfl,
      identities := rfl, made := rfl, entry := rfl, others := fun _ _ => rfl
      elsewhere := fun k hk hne p hp =>
        slot?_mapSlot_of_ne s f (hs.ne_elsewhere he hmem hk hne hp) }
  refine hrewrites.turns hs hlive.keys (fun p hp => ?_) (fun p hp p' hp' heq => ?_)
    (fun p hp k hk hne p' hp' heq => ?_) ?_
  · by_cases heq : id = p.2
    · have hsame := hlive.inj hmem hp heq
      exact ⟨_, hsame ▸ openHandle?_of_openSlot? hx⟩
    · rw [openHandle?, slot?_mapSlot_of_ne s f heq]
      exact hlive.opened p hp
  · rw [handle?_mapSlot hh, handle?_mapSlot hh] at heq
    exact (hs.handles _ hknown _ hknown p hp p' hp' heq).2
  · rw [handle?_mapSlot hh] at heq
    exact hne (congrArg Prod.snd (hs.handles _ hknown k hk p hp p' hp' heq).1).symm
  · rw [slots_holding he]
    exact shown_of_changed hlive.present hlive.keys hlive.ids hmem hx
      fun k _ hne => slot?_mapSlot_of_ne s f hne.symm

theorem Upright.closes (hs : s.Upright) {x : Closing} (he : s.registry.entryId? i = some x.entry)
    (hmem : (x.owner, x.slot) ∈ s.slotsOf x.entry) (failure : Option LeaseError) :
    s.Turns i ((s.holding i).remove x.owner)
      { disconnectFailures := if failure.isSome then 1 else 0 }
      ((s.beginClosing x).finishClosing x failure) := by
  have hlive := hs.live_of_some he
  have hknown := (hs.mem_known (i, x.entry)).mpr he
  set s' := (s.beginClosing x).finishClosing x none with hs'
  have hregistry : s'.registry = s.registry.detach x.entry x.owner x.slot :=
    registry_finishClosing x none
  have hslot : ∀ id, x.slot ≠ id → s'.slot? id = s.slot? id := fun id hne => by
    rw [hs', slot?_finishClosing, slot?_mapSlot_of_ne _ _ hne]
    exact slot?_mapSlot_of_ne _ _ hne
  have hsub : Keyed.erase (s.slotsOf x.entry) x.owner ⊆ s.slotsOf x.entry :=
    List.filter_subset_self _
  have hrest : ∀ p ∈ Keyed.erase (s.slotsOf x.entry) x.owner, s'.slot? p.2 = s.slot? p.2 :=
    fun p hp => hslot p.2 (hlive.of_mem_erase hmem hp).2
  have hrewrites : s.Rewrites i x.entry (Keyed.erase (s.slotsOf x.entry) x.owner) s' :=
    { known := he, settings := rfl, factory := rfl, observers := rfl, ledger := rfl,
      identities := by rw [hregistry]; rfl
      made := by rw [hregistry]; exact Registry.length_mapEntry ..
      entry := by
        rw [hregistry, Registry.entry_detach, if_pos rfl]
        exact if_pos ((Keyed.get?_eq_some_iff hlive.keys _ _).mpr hmem)
      others := fun o ho => by rw [hregistry, Registry.entry_detach, if_neg (Ne.symm ho)]
      elsewhere := fun k hk hne p hp => hslot p.2 (hs.ne_elsewhere he hmem hk hne hp) }
  have hturns : s.Turns i ((s.holding i).remove x.owner) {} s' := by
    refine hrewrites.turns hs (Keyed.nodup_erase hlive.keys _) (fun p hp => ?_)
      (fun p hp p' hp' heq => ?_) (fun p hp k hk hne p' hp' heq => ?_) ?_
    · rw [openHandle?, hrest p hp]
      exact hlive.opened p (hsub hp)
    · rw [handle?, hrest p hp, handle?, hrest p' hp'] at heq
      exact (hs.handles _ hknown _ hknown p (hsub hp) p' (hsub hp') heq).2
    · rw [handle?, hrest p hp] at heq
      exact hne (congrArg Prod.snd (hs.handles _ hknown k hk p (hsub hp) p' hp' heq).1).symm
    · rw [slots_holding he, ← shown_erase]
      exact shown_congr hrest
  cases failure with
  | none => exact hturns
  | some error =>
    exact hturns.holding ▸ hturns.trans (hturns.upright.quiet i { disconnectFailures := 1 } _)

theorem Upright.reassigns (hs : s.Upright) (he : s.registry.entryId? i = some e)
    {source : ContextId} (hmem : (source, id) ∈ s.slotsOf e)
    (hx : s.openSlot? (source, id) = some x) (hc : c ∉ Keyed.keys (s.slotsOf e)) (now : Nat) :
    s.Turns i (((s.holding i).remove source).write c (x.markBorrowed now)) {}
      ({ s with registry := ((s.registry.detach e source id).insert e c id).1 }.mapSlot id
        (·.takenOver c now)) := by
  have hlive := hs.live_of_some he
  have hknown := (hs.mem_known (i, e)).mpr he
  set slots := Keyed.erase (s.slotsOf e) source with hslots
  set s' := { s with registry := ((s.registry.detach e source id).insert e c id).1 }.mapSlot id
    (·.takenOver c now) with hs'
  have hslot : ∀ other, id ≠ other → s'.slot? other = s.slot? other := fun other hne =>
    slot?_mapSlot_of_ne _ _ hne
  have hself : s'.openSlot? (c, id) = some (x.markBorrowed now) := by
    obtain ⟨y, hy, hunder⟩ := Option.bind_eq_some_iff.mp hx
    have hslot : s'.slot? id = some (y.takenOver c now) := by
      rw [hs', slot?_mapSlot_self]
      exact congrArg (Option.map (·.takenOver c now)) hy
    rw [openSlot?, hslot]
    exact Slot.under?_takenOver hunder c now
  have hlt : e < (s.registry.detach e source id).entries.length := by
    rw [Registry.detach, Registry.length_mapEntry]
    exact hs.made _ hknown
  have hrewrites : s.Rewrites i e (Keyed.put slots c id) s' :=
    { known := he, settings := rfl, factory := rfl, observers := rfl, ledger := rfl,
      identities := rfl
      made := by
        show ((s.registry.detach e source id).insert e c id).1.entries.length = _
        rw [Registry.insert, Registry.length_mapEntry, Registry.detach, Registry.length_mapEntry]
      entry := by
        have hentry : (s.registry.entry e).detach source id = { s.registry.entry e with slots } :=
          if_pos ((Keyed.get?_eq_some_iff hlive.keys _ _).mpr hmem)
        show ((s.registry.detach e source id).insert e c id).1.entry e = _
        rw [Registry.entry_insert e c id hlt, if_pos rfl, Registry.entry_detach, if_pos rfl, hentry]
      others := fun o ho => by
        show ((s.registry.detach e source id).insert e c id).1.entry o = _
        rw [Registry.entry_insert o c id hlt, if_neg (Ne.symm ho), Registry.entry_detach,
          if_neg (Ne.symm ho)]
      elsewhere := fun k hk hne p hp => hslot p.2 (hs.ne_elsewhere he hmem hk hne hp) }
  have hfree : c ∉ Keyed.keys slots := fun hkey =>
    hc (List.map_subset _ (List.filter_subset_self _) hkey)
  have hhandle : s'.handle? id = s.handle? id :=
    handle?_mapSlot (f := (·.takenOver c now)) (fun _ => rfl) id id
  -- only the slot that is taken over had its handle before
  have hnew : ∀ k ∈ s.registry.known, ∀ p ∈ s.slotsOf k.2, (k.2 = e → p ∈ slots) →
      s.handle? p.2 ≠ s'.handle? id := by
    intro k hk p hp hin heq
    rw [hhandle] at heq
    obtain ⟨hentry, hsame⟩ := hs.handles k hk _ hknown p hp _ hmem heq
    have hne := (hlive.of_mem_erase hmem (hin (congrArg Prod.snd hentry))).2
    exact hne (congrArg Prod.snd hsame).symm
  have hturns := hrewrites.turns_put hs List.filter_sublist hfree
    (fun p hp => hslot p.2 (hlive.of_mem_erase hmem hp).2) hself hnew
  rw [hslots, shown_erase, ← slots_holding he] at hturns
  exact hturns

theorem Upright.registers (hs : s.Upright) (he : s.registry.entryId? i = some e)
    (hc : c ∉ Keyed.keys (s.slotsOf e)) (hh : ∀ j, ∀ p ∈ (s.holding j).slots, p.2.handle ≠ h)
    (now : Nat) : s.Turns i ((s.holding i).write c (OpenSlot.lent h now)) {}
      { s with
        slots := s.slots ++ [Slot.lentTo c h now]
        registry := (s.registry.insert e c s.slots.length).1 } := by
  have hknown := (hs.mem_known (i, e)).mpr he
  set s' : State := { s with
    slots := s.slots ++ [Slot.lentTo c h now]
    registry := (s.registry.insert e c s.slots.length).1 } with hs'
  have hslot : s'.slot? s.slots.length = some (Slot.lentTo c h now) := by
    rw [hs', slot?]
    simp
  have hself : s'.openSlot? (c, s.slots.length) = some (OpenSlot.lent h now) := by
    rw [openSlot?, hslot]
    exact Slot.under?_lentTo c h now
  have hsame : ∀ k ∈ s.registry.known, ∀ p ∈ s.slotsOf k.2, s'.slot? p.2 = s.slot? p.2 :=
    fun k hk p hp => by
      obtain ⟨x, hx⟩ := (hs.live hk).present p hp
      obtain ⟨y, hy, -⟩ := openSlot?_eq_some hx
      rw [hs', slot?, List.getElem?_append_left (List.getElem?_eq_some_iff.mp hy).1, slot?]
  have hlt : e < s.registry.entries.length := hs.made _ hknown
  have hrewrites : s.Rewrites i e (Keyed.put (s.slotsOf e) c s.slots.length) s' :=
    { known := he, settings := rfl, factory := rfl, observers := rfl, ledger := rfl,
      identities := rfl, made := Registry.length_mapEntry ..
      entry := (Registry.entry_insert e c _ hlt).trans (if_pos rfl)
      others := fun o ho => (Registry.entry_insert o c _ hlt).trans (if_neg (Ne.symm ho))
      elsewhere := fun k hk _ p hp => hsame k hk p hp }
  have hhandle : s'.handle? s.slots.length = some h := by
    rw [handle?, hslot]
    rfl
  have hnew : ∀ k ∈ s.registry.known, ∀ p ∈ s.slotsOf k.2, (k.2 = e → p ∈ s.slotsOf e) →
      s.handle? p.2 ≠ s'.handle? s.slots.length := by
    intro k hk p hp _ heq
    obtain ⟨x, hx, hmem⟩ := hs.mem_slots_holding hk hp
    rw [(openHandle?_eq_some (openHandle?_of_openSlot? hx)).2, hhandle] at heq
    exact hh k.1 _ hmem (Option.some.inj heq)
  have hturns :=
    hrewrites.turns_put hs (List.Sublist.refl _) hc (hsame _ hknown) hself hnew
  rw [← slots_holding he] at hturns
  exact hturns

theorem Upright.welcomes (hs : s.Upright) (i : Identity) :
    s.Turns i (s.holding i).welcome {} { s with registry := (s.registry.ensure i).1 } := by
  have hclaimed := (hs.awaits (i := i)).upright
  have hupright : { s with registry := (s.registry.ensure i).1 }.Upright := by
    refine hclaimed.withRegistry hclaimed.identities hclaimed.entries (fun k hk => ?_) (fun e => ?_)
      fun k hk => .inl hk
    · have hlt := hclaimed.made k hk
      rwa [Registry.claim, Registry.length_mapEntry] at hlt
    · exact (Registry.slots_claim e).symm
  refine ⟨hupright, rfl, rfl, rfl, rfl, ?_, fun j hj => ?_⟩
  · cases hi : s.registry.entryId? i with
    | some e =>
      have hwelcome : (s.holding i).welcome = s.holding i := by
        rw [holding_of_some hi]
        rfl
      rw [Registry.ensure_of_some hi, hwelcome]
    | none =>
      have hself := (Registry.entryId?_ensure hi i).trans (if_pos rfl)
      rw [holding_of_none hi, holding_of_some hself, slotsOf, Registry.pendingIn,
        Registry.entry_ensure, Registry.entry_of_le (Nat.le_refl _)]
      rfl
  · have hsame : (s.registry.ensure i).1.entryId? j = s.registry.entryId? j := by
      cases hi : s.registry.entryId? i with
      | some e => rw [Registry.ensure_of_some hi]
      | none => rw [Registry.entryId?_ensure hi, if_neg hj.symm]
    rw [holding, holding, hsame]
    cases s.registry.entryId? j with
    | none => rfl
    | some f =>
      dsimp only
      rw [slotsOf, Registry.pendingIn, Registry.entry_ensure]
      rfl

end writes

end State

end Affine

theorem Registry.cancel_claim (r : Registry) (e : Nat) : (r.claim e).cancel e = r := by
  rw [cancel, claim, mapEntry, mapEntry, List.modify_modify_eq]
  exact congrArg (Registry.mk r.known) (List.modify_id e r.entries)

end ConnectionLeasing

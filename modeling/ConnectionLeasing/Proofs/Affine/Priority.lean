import ConnectionLeasing.Proofs.Affine.Observing
import ConnectionLeasing.Proofs.Affine.Serving

/-!
# The priorities of a borrow

What a borrow is served with, read off the holding of its identity case by case: first the check of
the caller's own slot (`Occasion.Checks`), then the borrow itself (`Occasion.Prefers`). The cases
exclude each other and leave nothing out.

* `Occasion.prefers_lends`: the specification of a borrow keeps to the priorities.
* `Registry.Reordered`: the same registry, enumerated in another order.
* `borrow_by_priority`: the walk of a borrow comes to its end in the case that applies.
-/

namespace ConnectionLeasing

namespace Affine

/-! ### The cases -/

namespace Occasion

/-- The caller's own slot, if there is one, is of no use to the borrow: it is not usable, or it is
idle and carries another channel. -/
def Useless (o : Occasion) (r : Request) (h : Holding) : Prop :=
  ∀ x, h.slot? r.context = some x → o.behaviour.usable x.handle = true →
    x.borrowed = false ∧ x.handle.channel ≠ r.channel

/-- The slot of another context that the borrow can take over: it is idle and usable and carries
the channel. -/
structure Spare (o : Occasion) (r : Request) (h : Holding) (source : ContextId) (x : OpenSlot) :
    Prop where
  mem : (source, x) ∈ h.slots
  other : source ≠ r.context
  idle : x.borrowed = false
  usable : o.behaviour.usable x.handle = true
  channel : x.handle.channel = r.channel

/-- The slot of a context is checked when `h` is held for its identity. -/
structure Checks (o : Occasion) (c : ContextId) (h : Holding) (d : Deed) : Prop where
  /-- A slot lent for too long is idle from now on. -/
  overdue : ∀ x, h.slot? c = some x → x.borrowed = true →
    o.settings.retention.borrowExpired x.borrowTime o.now = true →
      d.holding = h.write c (x.markIdle o.now) ∧ d.disconnected = []
  /-- A slot idle for too long is closed. -/
  stale : ∀ x, h.slot? c = some x → x.borrowed = false →
    o.settings.retention.idleExpired x.releaseTime o.now = true →
      d.holding = h.remove c ∧ d.disconnected = [x.handle]
  /-- Any other slot is left alone. -/
  kept : (∀ x, h.slot? c = some x →
      (x.borrowed = true → o.settings.retention.borrowExpired x.borrowTime o.now = false) ∧
      (x.borrowed = false → o.settings.retention.idleExpired x.releaseTime o.now = false)) →
    d = { holding := h }

/-- A borrow is served by the priorities when `h` is held for its identity. -/
structure Prefers (o : Occasion) (r : Request) (h : Holding) (y : Service) : Prop where
  /-- The own slot is usable and lent: nothing changes. -/
  lent : ∀ x, h.slot? r.context = some x → o.behaviour.usable x.handle = true →
    x.borrowed = true →
      y = ⟨{ holding := h }, .refused (.alreadyBorrowed r.identity r.context)⟩
  /-- The own slot is usable, idle and of the right channel: it is lent. -/
  own : ∀ x, h.slot? r.context = some x → o.behaviour.usable x.handle = true →
    x.borrowed = false → x.handle.channel = r.channel →
      y.result = .lent x.handle ∧ y.deed.holding = h.write r.context (x.markBorrowed o.now) ∧
        y.deed.disconnected = [] ∧ y.deed.attempts = []
  /-- Otherwise the own slot is closed, if there is one. -/
  cleared : o.Useless r h → y.deed.disconnected = (h.slot? r.context).toList.map (·.handle)
  /-- Then an idle slot of another context moves to the caller, if there is one. -/
  takenOver : o.Useless r h → (∃ source x, o.Spare r h source x) →
    ∃ source x, o.Spare r h source x ∧ y.result = .lent x.handle ∧
      y.deed.holding =
        ((h.remove r.context).remove source).write r.context (x.markBorrowed o.now) ∧
      y.deed.attempts = []
  /-- Otherwise, below the limit, a new connection opens and is registered for the caller. -/
  opened : o.Useless r h → (¬ ∃ source x, o.Spare r h source x) →
    (h.remove r.context).slots.length + h.pending < o.settings.maxConnections →
    ∀ produces, o.factory.produces? r.channel = some produces →
      y.deed.attempts = [(produces, r.identity, o.settings.connectTimeout)] ∧
      match o.behaviour.refusal? ⟨o.next, produces⟩ r.identity o.settings.connectTimeout with
      | none => y.result = .lent ⟨o.next, produces⟩ ∧ y.deed.holding =
          (h.remove r.context).welcome.write r.context (.lent ⟨o.next, produces⟩ o.now)
      | some e => y.result = .refused e ∧ y.deed.holding = (h.remove r.context).welcome
  /-- There is nothing to open it with. -/
  unsupported : o.Useless r h → (¬ ∃ source x, o.Spare r h source x) →
    (h.remove r.context).slots.length + h.pending < o.settings.maxConnections →
    o.factory.produces? r.channel = none →
      y.result = .refused (.unsupported r.channel) ∧
        y.deed.holding = (h.remove r.context).welcome ∧ y.deed.attempts = []
  /-- At the limit the borrow is refused. -/
  full : o.Useless r h → (¬ ∃ source x, o.Spare r h source x) →
    o.settings.maxConnections ≤ (h.remove r.context).slots.length + h.pending →
      y.result = .refused (.limitExceeded r.identity r.context (h.remove r.context).slots.length
        o.settings.maxConnections) ∧
        y.deed.holding = (h.remove r.context).welcome ∧ y.deed.attempts = []

variable {o : Occasion} {r : Request} {h : Holding}

theorem checks_inspects (o : Occasion) (c : ContextId) (h : Holding) :
    o.Checks c h (o.inspects h c) where
  overdue x hslot hlent hexpired := by
    rw [inspects, hslot]
    dsimp only
    rw [RetentionPolicy.verdict, if_pos hlent, if_pos hexpired]
    exact ⟨rfl, rfl⟩
  stale x hslot hidle hexpired := by
    rw [inspects, hslot]
    dsimp only
    rw [RetentionPolicy.verdict, if_neg (Bool.eq_false_iff.mp hidle), if_pos hexpired]
    exact ⟨rfl, rfl⟩
  kept hkept := by
    rw [inspects]
    cases hslot : h.slot? c with
    | none => rfl
    | some x =>
      obtain ⟨hlent, hidle⟩ := hkept x hslot
      dsimp only
      rw [RetentionPolicy.verdict]
      cases hx : x.borrowed with
      | true => rw [if_pos rfl, if_neg (Bool.eq_false_iff.mp (hlent hx))]
      | false => rw [if_neg Bool.false_ne_true, if_neg (Bool.eq_false_iff.mp (hidle hx))]

theorem suits_iff {x : OpenSlot} {channel : Channel} : o.suits channel x = true ↔
    x.borrowed = false ∧ o.behaviour.usable x.handle = true ∧ x.handle.channel = channel := by
  simp [suits]

theorem spare_iff {source : ContextId} {x : OpenSlot} : o.Spare r h source x ↔
    (source, x) ∈ (h.remove r.context).slots ∧
      (decide (source ≠ r.context) && o.suits r.channel x) = true := by
  rw [Bool.and_eq_true, decide_eq_true_eq, suits_iff]
  constructor
  · intro hs
    exact ⟨List.mem_filter.mpr ⟨hs.mem, decide_eq_true hs.other⟩, hs.other, hs.idle, hs.usable,
      hs.channel⟩
  · rintro ⟨hmem, hother, hidle, husable, hchannel⟩
    exact ⟨List.mem_of_mem_filter hmem, hother, hidle, husable, hchannel⟩

theorem lends_of_useless (hu : o.Useless r h) : ∃ d : Deed,
    d.disconnected = (h.slot? r.context).toList.map (·.handle) ∧ d.attempts = [] ∧
      o.lends h r = d.leadsTo (o.looksFurther (h.remove r.context) r) := by
  cases hslot : h.slot? r.context with
  | none =>
    have hremove : h.remove r.context = h := by
      have hkeys := (Keyed.get?_eq_none_iff h.slots r.context).mp hslot
      have herase : Keyed.erase h.slots r.context = h.slots :=
        List.filter_eq_self.mpr fun p hp => decide_eq_true fun heq =>
          hkeys (heq ▸ Keyed.mem_keys hp)
      rw [Holding.remove, herase]
    refine ⟨{ holding := h }, rfl, rfl, ?_⟩
    rw [Deed.nothing_leadsTo, hremove, lends, hslot]
  | some x =>
    refine ⟨o.closes h r.context x, rfl, rfl, ?_⟩
    rw [lends, hslot]
    dsimp only
    have hlent : (o.behaviour.usable x.handle && x.borrowed) = false := by
      cases husable : o.behaviour.usable x.handle with
      | false => rfl
      | true => exact (hu x hslot husable).1
    have hsuits : ¬ o.suits r.channel x = true := fun hs => by
      obtain ⟨-, husable, hchannel⟩ := suits_iff.mp hs
      exact (hu x hslot husable).2 hchannel
    rw [hlent, if_neg Bool.false_ne_true, if_neg hsuits]

theorem looksFurther_of_none (hnone : ¬ ∃ source x, o.Spare r h source x) :
    o.looksFurther (h.remove r.context) r = o.opens (h.remove r.context) r := by
  have hfind : (h.remove r.context).slots.find? (fun p => p.1 ≠ r.context && o.suits r.channel p.2) =
      none :=
    List.find?_eq_none.mpr fun p hp hs => hnone ⟨p.1, p.2, spare_iff.mpr ⟨hp, hs⟩⟩
  rw [looksFurther, hfind, takesOver]

theorem looksFurther_of_spare (hspare : ∃ source x, o.Spare r h source x) :
    ∃ source x, o.Spare r h source x ∧ o.looksFurther (h.remove r.context) r =
      o.takesOver (h.remove r.context) r (some (source, x)) := by
  obtain ⟨source, x, hx⟩ := hspare
  rw [looksFurther]
  cases hfind : (h.remove r.context).slots.find?
      (fun p => p.1 ≠ r.context && o.suits r.channel p.2) with
  | none =>
    exact absurd (spare_iff.mp hx).2 (List.find?_eq_none.mp hfind _ (spare_iff.mp hx).1)
  | some p =>
    have hsuits : (decide (p.1 ≠ r.context) && o.suits r.channel p.2) = true := by
      simpa using List.find?_some hfind
    exact ⟨p.1, p.2, spare_iff.mpr ⟨List.mem_of_find?_eq_some hfind, hsuits⟩, rfl⟩

section opens
variable {produces : Channel}

theorem opens_of_full (hfull : o.settings.maxConnections ≤ h.slots.length + h.pending) :
    o.opens h r = ⟨{ holding := h.welcome, ledger := { overLimit := 1 } },
      .refused (.limitExceeded r.identity r.context h.slots.length o.settings.maxConnections)⟩ := by
  rw [opens, if_neg (Nat.not_lt.mpr hfull)]

variable (hroom : h.slots.length + h.pending < o.settings.maxConnections)
include hroom

theorem opens_of_unsupported (hproduces : o.factory.produces? r.channel = none) :
    o.opens h r = ⟨{ holding := h.welcome }, .refused (.unsupported r.channel)⟩ := by
  rw [opens, if_pos hroom, hproduces]

theorem opens_of_refusal (hproduces : o.factory.produces? r.channel = some produces) {e : LeaseError}
    (he : o.behaviour.refusal? ⟨o.next, produces⟩ r.identity o.settings.connectTimeout = some e) :
    o.opens h r = ⟨{ holding := h.welcome
                     attempts := [(produces, r.identity, o.settings.connectTimeout)] },
      .refused e⟩ := by
  rw [opens, if_pos hroom, hproduces]
  dsimp only
  rw [he]

theorem opens_of_success (hproduces : o.factory.produces? r.channel = some produces)
    (hok : o.behaviour.refusal? ⟨o.next, produces⟩ r.identity o.settings.connectTimeout = none) :
    o.opens h r = ⟨{ holding := h.welcome.write r.context (.lent ⟨o.next, produces⟩ o.now)
                     ledger := { created := 1, borrowed := 1 }
                     attempts := [(produces, r.identity, o.settings.connectTimeout)] },
      .lent ⟨o.next, produces⟩⟩ := by
  rw [opens, if_pos hroom, hproduces]
  dsimp only
  rw [hok]

end opens

theorem disconnected_looksFurther (o : Occasion) (r : Request) (h : Holding) :
    (o.looksFurther h r).deed.disconnected = [] := by
  rw [looksFurther]
  cases h.slots.find? (fun p => p.1 ≠ r.context && o.suits r.channel p.2) with
  | some p => rfl
  | none =>
    show (o.opens h r).deed.disconnected = []
    rw [opens]
    split
    · split
      · rfl
      · dsimp only
        split <;> rfl
    · rfl

/-- **The specification of a borrow keeps to the priorities.** -/
theorem prefers_lends (o : Occasion) (r : Request) (h : Holding) :
    o.Prefers r h (o.lends h r) where
  lent x hslot husable hlent := by
    rw [lends, hslot]
    dsimp only
    rw [husable, hlent]
    rfl
  own x hslot husable hidle hchannel := by
    rw [lends, hslot]
    dsimp only
    rw [husable, hidle, if_neg (by decide), if_pos (suits_iff.mpr ⟨hidle, husable, hchannel⟩)]
    exact ⟨rfl, rfl, rfl, rfl⟩
  cleared hu := by
    obtain ⟨d, hd, -, hlends⟩ := lends_of_useless hu
    rw [hlends]
    show d.disconnected ++ _ = _
    rw [disconnected_looksFurther, List.append_nil, hd]
  takenOver hu hspare := by
    obtain ⟨d, -, hd, hlends⟩ := lends_of_useless hu
    obtain ⟨source, x, hx, hlooks⟩ := looksFurther_of_spare hspare
    rw [hlends, hlooks]
    exact ⟨source, x, hx, rfl, rfl, by rw [Deed.leadsTo, Deed.andThen, hd]; rfl⟩
  opened hu hnone hroom produces hproduces := by
    obtain ⟨d, -, hd, hlends⟩ := lends_of_useless hu
    rw [hlends, looksFurther_of_none hnone, Deed.leadsTo, Deed.andThen, hd]
    cases hconnect : o.behaviour.refusal? ⟨o.next, produces⟩ r.identity o.settings.connectTimeout with
    | none =>
      rw [opens_of_success (h := h.remove r.context) hroom hproduces hconnect]
      exact ⟨rfl, rfl, rfl⟩
    | some e =>
      rw [opens_of_refusal (h := h.remove r.context) hroom hproduces hconnect]
      exact ⟨rfl, rfl, rfl⟩
  unsupported hu hnone hroom hproduces := by
    obtain ⟨d, -, hd, hlends⟩ := lends_of_useless hu
    rw [hlends, looksFurther_of_none hnone, Deed.leadsTo, Deed.andThen, hd,
      opens_of_unsupported (h := h.remove r.context) hroom hproduces]
    exact ⟨rfl, rfl, rfl⟩
  full hu hnone hroom := by
    obtain ⟨d, -, hd, hlends⟩ := lends_of_useless hu
    rw [hlends, looksFurther_of_none hnone, Deed.leadsTo, Deed.andThen, hd,
      opens_of_full (h := h.remove r.context) hroom]
    exact ⟨rfl, rfl, rfl⟩

/-- By the priorities no borrow fails with an internal error, unless the connection that is being
opened reports one. -/
theorem Prefers.internal {y : Service} (hy : o.Prefers r h y) {detail : String}
    (hresult : y.result = .refused (.internal detail)) :
    ∃ produces, o.factory.produces? r.channel = some produces ∧
      o.behaviour.refusal? ⟨o.next, produces⟩ r.identity o.settings.connectTimeout =
        some (.internal detail) := by
  by_cases hu : o.Useless r h
  · by_cases hspare : ∃ source x, o.Spare r h source x
    · obtain ⟨source, x, -, hlent, -⟩ := hy.takenOver hu hspare
      rw [hlent] at hresult
      cases hresult
    · by_cases hroom : (h.remove r.context).slots.length + h.pending < o.settings.maxConnections
      · cases hproduces : o.factory.produces? r.channel with
        | none =>
          rw [(hy.unsupported hu hspare hroom hproduces).1] at hresult
          cases hresult
        | some produces =>
          obtain ⟨-, hopened⟩ := hy.opened hu hspare hroom produces hproduces
          refine ⟨produces, rfl, ?_⟩
          cases hconnect : o.behaviour.refusal? ⟨o.next, produces⟩ r.identity
              o.settings.connectTimeout with
          | none =>
            rw [hconnect] at hopened
            rw [hopened.1] at hresult
            cases hresult
          | some e =>
            rw [hconnect] at hopened
            rw [hopened.1] at hresult
            cases hresult
            rfl
      · rw [(hy.full hu hspare (Nat.not_lt.mp hroom)).1] at hresult
        cases hresult
  · -- the own slot is usable, and lent or of the right channel
    obtain ⟨x, hx⟩ := not_forall.mp hu
    obtain ⟨hslot, husable, hneeded⟩ : h.slot? r.context = some x ∧
        o.behaviour.usable x.handle = true ∧
        (x.borrowed = false → x.handle.channel = r.channel) := by
      simpa only [Classical.not_imp, not_and, not_not] using hx
    cases hlent : x.borrowed with
    | true =>
      rw [hy.lent x hslot husable hlent] at hresult
      cases hresult
    | false =>
      rw [(hy.own x hslot husable hlent (hneeded hlent)).1] at hresult
      cases hresult

end Occasion

end Affine

/-! ### Enumeration in another order -/

/-- The identities, and the slots of each entry, come in another order. -/
structure Registry.Reordered (r r' : Registry) : Prop where
  known : r'.known.Perm r.known
  made : r'.entries.length = r.entries.length
  slots : ∀ e, (r'.entry e).slots.Perm (r.entry e).slots
  pending : ∀ e, (r'.entry e).pending = (r.entry e).pending

theorem Registry.Reordered.refl (r : Registry) : r.Reordered r :=
  ⟨.refl _, rfl, fun _ => .refl _, fun _ => rfl⟩

namespace Affine

section reordered
variable {s : State} {registry : Registry} (hr : s.registry.Reordered registry)
include hr

theorem State.Upright.reordered (hs : s.Upright) : { s with registry }.Upright where
  identities := (hr.known.map _).nodup_iff.mpr hs.identities
  entries := (hr.known.map _).nodup_iff.mpr hs.entries
  made k hk := hr.made.symm ▸ hs.made k (hr.known.mem_iff.mp hk)
  contexts k hk := ((hr.slots k.2).map _).nodup_iff.mpr (hs.contexts k (hr.known.mem_iff.mp hk))
  opened k hk p hp := hs.opened k (hr.known.mem_iff.mp hk) p ((hr.slots k.2).mem_iff.mp hp)
  handles k hk k' hk' p hp p' hp' := hs.handles k (hr.known.mem_iff.mp hk) k'
    (hr.known.mem_iff.mp hk') p ((hr.slots k.2).mem_iff.mp hp) p' ((hr.slots k'.2).mem_iff.mp hp')

theorem State.Upright.slots_reordered (hs : s.Upright) (i : Identity) :
    (State.holding { s with registry } i).slots.Perm (s.holding i).slots := by
  have hentry : registry.entryId? i = s.registry.entryId? i :=
    Keyed.get?_perm hr.known hs.identities i
  cases he : s.registry.entryId? i with
  | none =>
    rw [State.holding_of_none he, State.holding_of_none (hentry.trans he)]
  | some e =>
    rw [State.slots_holding he, State.slots_holding (e := e) (hentry.trans he)]
    exact (hr.slots e).filterMap _

theorem Occasion.Meets.reordered {o : Occasion} (hs : o.Meets s) : o.Meets { s with registry } where
  upright := hs.upright.reordered hr
  settings := hs.settings
  factory := hs.factory
  below i p hp := hs.below i p ((hs.upright.slots_reordered hr i).mem_iff.mp hp)

end reordered

/-- **Borrows are served by priority.** In every manager of a run that is not disconnecting
anything, whatever the order in which identities and slots are enumerated, a borrow that nothing
comes between checks the caller's own slot and then serves the request by the priorities. It always
comes to an end, with an internal error only if the connection that is being opened reports one, and
changes nothing that is held for other identities. -/
theorem borrow_by_priority {m : System} (hm : Reachable .calm m)
    (hyields : ∀ p ∈ m.ongoing, p.frame.call.yields) {registry : Registry}
    (horder : m.state.registry.Reordered registry) {o : Occasion}
    (hsettings : o.settings = m.state.settings) (hfactory : o.factory = m.state.factory)
    (hnext : ∀ h ∈ m.built, h.number < o.next) (r : Request) :
    let s : State := { m.state with registry }
    ∃ calls s' checked y,
      (start s o.now (.borrow r)).Performs o.behaviour o.now o.next calls s' y.result ∧
      o.Checks r.context (s.holding r.identity) checked ∧
      o.Prefers r checked.holding y ∧
      s'.holding r.identity = y.deed.holding ∧
      (∀ j, j ≠ r.identity → s'.holding j = s.holding j) ∧
      calls.filterMap Call.disconnected? = checked.disconnected ++ y.deed.disconnected ∧
      calls.filterMap Call.attempt? = y.deed.attempts ∧
      s'.ledger = s.ledger.add (checked.ledger.add y.deed.ledger) ∧
      ∀ detail, y.result = .refused (.internal detail) →
        ∃ produces, o.factory.produces? r.channel = some produces ∧
          o.behaviour.refusal? ⟨o.next, produces⟩ r.identity o.settings.connectTimeout =
            some (.internal detail) := by
  intro s
  have hmeets : o.Meets s := (hm.meets hyields hsettings hfactory hnext).reordered horder
  have hinspector : Observer.inspector ∈ s.observers := by
    obtain ⟨others, hothers⟩ := hm.observers
    show Observer.inspector ∈ m.state.observers
    simp [← hothers]
  let checked := o.inspects (s.holding r.identity) r.context
  have hprefers := o.prefers_lends r checked.holding
  have hdoes := does_start hmeets (k := .borrow r) rfl
  rw [Occasion.attends, if_pos hinspector] at hdoes
  obtain ⟨calls, s', hperforms, hdisconnected, hattempts, hturns⟩ := hdoes
  refine ⟨calls, s', checked, o.lends checked.holding r, hperforms,
    o.checks_inspects r.context (s.holding r.identity), hprefers, hturns.holding, hturns.others,
    hdisconnected, ?_, hturns.ledger, fun detail => hprefers.internal⟩
  rw [hattempts, Occasion.serves, Deed.leadsTo, Deed.andThen]
  show checked.attempts ++ _ = _
  rw [o.attempts_inspects, List.nil_append]
  rfl

/-- A borrow on behalf of a context. -/
def sharedRequest (context : Nat) : Request := ⟨⟨"host", 22, "user", "secret"⟩, ⟨context⟩, .sftp⟩

/-- A context opens a connection, which gets this handle number, and holds it. -/
def System.lendNew (m : System) (context handle : Nat) : System :=
  (m.started (.borrow (sharedRequest context))).resumed
    ⟨.borrow (sharedRequest context), .opening (sharedRequest context) 0 .sftp (.ofMillis 5000)⟩
    ⟨⟨handle, .sftp⟩, none⟩ []

def System.takeBack (m : System) (context : Nat) : System :=
  m.started (.release (sharedRequest context).identity ⟨context⟩)

theorem Reachable.lendNew {m : System} (hm : Reachable .calm m) (context handle : Nat)
    (hidle : m.ongoing = []) (hopening : (m.started (.borrow (sharedRequest context))).ongoing =
      [⟨.borrow (sharedRequest context),
        .opening (sharedRequest context) 0 .sftp (.ofMillis 5000)⟩])
    (hnew : ⟨handle, .sftp⟩ ∉ (m.started (.borrow (sharedRequest context))).built) :
    Reachable .calm (m.lendNew context handle) := by
  have hstarted : Reachable .calm (m.started (.borrow (sharedRequest context))) :=
    hm.next (.start m _ (by simp [hidle]))
  exact hstarted.next (.resume _ [] ⟨.borrow (sharedRequest context),
    .opening (sharedRequest context) 0 .sftp (.ofMillis 5000)⟩ [] ⟨⟨handle, .sftp⟩, none⟩ hopening
    (by simp) ⟨hnew, rfl⟩)

theorem Reachable.takeBack {m : System} (hm : Reachable .calm m) (context : Nat)
    (hidle : m.ongoing = []) : Reachable .calm (m.takeBack context) :=
  hm.next (.start m _ (by simp [hidle]))

/-- The first context has borrowed a connection and has given it back. -/
def handedBack : System := ((System.initial {} .faithful 0).lendNew 1 1).takeBack 1

theorem reachable_handedBack : Reachable .calm handedBack :=
  ((Reachable.initial {} .faithful 0).lendNew 1 1 rfl (by cbv) (by decide)).takeBack 1 (by cbv)

/-- Two nanoseconds to hold a slot, and two to leave it idle. -/
def hasty : ManagerSettings := { borrowTimeout := ⟨2⟩, idleTimeout := ⟨2⟩ }

/-- Three contexts have borrowed, and the first two have given back. -/
def lingering : System :=
  (((((System.initial hasty .faithful 0).lendNew 1 1).lendNew 2 2).lendNew 3 3).takeBack 1).takeBack 2

theorem reachable_lingering : Reachable .calm lingering := by
  have hfirst := (Reachable.initial hasty .faithful 0).lendNew 1 1 rfl (by cbv) (by decide)
  have hsecond := hfirst.lendNew 2 2 (by cbv) (by cbv) (by decide)
  have hthird := hsecond.lendNew 3 3 (by cbv) (by cbv) (by decide)
  exact (hthird.takeBack 1 (by cbv)).takeBack 2 (by cbv)

/-- The second context borrows again, when three nanoseconds have passed. -/
def nextBorrow : Occasion where
  behaviour := .smooth
  settings := hasty
  factory := .faithful
  now := 3
  next := 4

/-- Every timeout has passed. The caller's own slot is closed for it; the slot of the first context
is taken over all the same; the one of the third context, which is lent, stays where it is. -/
theorem borrow_by_priority_taken_over : ∃ calls s',
    (start lingering.state 3 (.borrow (sharedRequest 2))).Performs .smooth 3 4 calls s'
      (.lent ⟨1, .sftp⟩) ∧
    hasty.retention.idleExpired 0 3 ∧ hasty.retention.borrowExpired 0 3 ∧
    (lingering.state.holding (sharedRequest 2).identity).slots =
      [(⟨1⟩, ⟨⟨1, .sftp⟩, false, 0, 0⟩), (⟨2⟩, ⟨⟨2, .sftp⟩, false, 0, 0⟩),
        (⟨3⟩, ⟨⟨3, .sftp⟩, true, 0, 0⟩)] ∧
    (s'.holding (sharedRequest 2).identity).slots =
      [(⟨3⟩, ⟨⟨3, .sftp⟩, true, 0, 0⟩), (⟨2⟩, ⟨⟨1, .sftp⟩, true, 3, 0⟩)] ∧
    calls.filterMap Call.disconnected? = [⟨2, .sftp⟩] ∧ calls.filterMap Call.attempt? = [] := by
  have hongoing : ∀ p ∈ lingering.ongoing, p.frame.call.yields := fun p hp =>
    absurd (List.length_pos_of_mem hp) (by decide)
  have hidle : hasty.retention.idleExpired 0 3 :=
    (RetentionPolicy.idleExpired_iff ..).mpr (by decide)
  have hlent : hasty.retention.borrowExpired 0 3 :=
    (RetentionPolicy.borrowExpired_iff ..).mpr (by decide)
  have hholding : lingering.state.holding (sharedRequest 2).identity =
      ⟨true, [(⟨1⟩, ⟨⟨1, .sftp⟩, false, 0, 0⟩), (⟨2⟩, ⟨⟨2, .sftp⟩, false, 0, 0⟩),
        (⟨3⟩, ⟨⟨3, .sftp⟩, true, 0, 0⟩)], 0⟩ := by cbv
  obtain ⟨calls, s', checked, y, hperforms, hchecks, hprefers, hheld, -, hdisconnected, hattempts, -⟩ :=
    borrow_by_priority reachable_lingering hongoing (.refl _) (o := nextBorrow) (by decide)
      (by decide) (by decide) (sharedRequest 2)
  rw [hholding] at hchecks
  -- the check closes the caller's own slot, so nothing is in the way of the others
  obtain ⟨hchecked, hclosed⟩ := hchecks.stale ⟨⟨2, .sftp⟩, false, 0, 0⟩ rfl rfl hidle
  let left : Holding := ⟨true,
    [(⟨1⟩, ⟨⟨1, .sftp⟩, false, 0, 0⟩), (⟨3⟩, ⟨⟨3, .sftp⟩, true, 0, 0⟩)], 0⟩
  have hleft : checked.holding = left := hchecked.trans (by cbv)
  rw [hleft] at hprefers
  have huseless : nextBorrow.Useless (sharedRequest 2) left := fun x hx => by cases hx
  have hspare : nextBorrow.Spare (sharedRequest 2) left ⟨1⟩ ⟨⟨1, .sftp⟩, false, 0, 0⟩ :=
    ⟨.head _, by decide, rfl, rfl, rfl⟩
  obtain ⟨source, x, htaken, hresult, hholds, hnone⟩ :=
    hprefers.takenOver huseless ⟨_, _, hspare⟩
  obtain ⟨rfl, rfl⟩ : source = ⟨1⟩ ∧ x = ⟨⟨1, .sftp⟩, false, 0, 0⟩ := by
    rcases List.mem_cons.mp htaken.mem with h | h
    · cases h
      exact ⟨rfl, rfl⟩
    · cases List.mem_singleton.mp h
      cases htaken.idle
  have hcleared := hprefers.cleared huseless
  refine ⟨calls, s', hresult ▸ hperforms, hidle, hlent, by rw [hholding], ?_, ?_,
    hattempts.trans hnone⟩
  · rw [hheld, hholds]
    rfl
  · rw [hdisconnected, hclosed, hcleared]
    rfl

end Affine

end ConnectionLeasing

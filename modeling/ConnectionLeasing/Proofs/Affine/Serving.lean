import ConnectionLeasing.Proofs.Affine.Answering
import ConnectionLeasing.Proofs.Affine.Holding

/-!
# What an operation comes to for its identity

What a borrow, a release or a close does is decided by the holding of its identity and by the
occasion: how handles behave, the settings, the factory, the moment and the number of the next
handle. `Occasion.serves` computes it, in the order of priority in which a borrow is served:

1. the caller's own slot, if it is usable and lent, refuses the borrow;
2. if it is usable, idle and of the right channel, it is lent;
3. otherwise it is closed, and the first idle, usable slot of the right channel among those of other
   contexts moves to the caller;
4. without such a slot a new connection is opened, as long as there is room for one;
5. at the limit the borrow is refused.

Before that the caller's own slot is inspected.

* `does_start`: an operation that nothing comes between does exactly this.
-/

namespace ConnectionLeasing

/-- What a connect is asked for. -/
def Call.attempt? : Call → Option (Channel × Identity × Duration)
  | connect channel i timeout => some (channel, i, timeout)
  | _ => none

namespace Affine

/-! ### The specification -/

/-- All that decides what an operation does, but for the holding of its identity. -/
structure Occasion where
  behaviour : Behaviour
  settings : ManagerSettings
  factory : Factory
  now : Nat
  /-- The number of the next handle. -/
  next : Nat

/-- What is done for one identity. -/
structure Deed where
  /-- The holding of the identity afterwards. -/
  holding : Holding
  /-- What is booked. -/
  ledger : Ledger := {}
  /-- The handles asked to disconnect. -/
  disconnected : List Handle := []
  /-- What connects are asked for. -/
  attempts : List (Channel × Identity × Duration) := []

/-- What is done for one identity, and the result. -/
structure Service where
  deed : Deed
  result : Result

/-- One thing is done after another. -/
def Deed.andThen (d d' : Deed) : Deed where
  holding := d'.holding
  ledger := d.ledger.add d'.ledger
  disconnected := d.disconnected ++ d'.disconnected
  attempts := d.attempts ++ d'.attempts

/-- A service after something was done. -/
def Deed.leadsTo (d : Deed) (x : Service) : Service := ⟨d.andThen x.deed, x.result⟩

@[simp] theorem Deed.nothing_leadsTo (h : Holding) (x : Service) :
    ({ holding := h } : Deed).leadsTo x = x := by
  simp [leadsTo, andThen]

theorem Deed.andThen_leadsTo (d d' : Deed) (x : Service) :
    (d.andThen d').leadsTo x = d.leadsTo (d'.leadsTo x) := by
  simp only [leadsTo, andThen, Ledger.add_assoc, List.append_assoc]

namespace Occasion

variable (o : Occasion)

/-- The slot of a context is closed. -/
def closes (h : Holding) (c : ContextId) (x : OpenSlot) : Deed where
  holding := h.remove c
  ledger := { disconnectFailures := if (o.behaviour.complaint? x.handle).isSome then 1 else 0 }
  disconnected := [x.handle]

/-- The slot of a context is inspected. -/
def inspects (h : Holding) (c : ContextId) : Deed :=
  match h.slot? c with
  | none => { holding := h }
  | some x =>
    match o.settings.retention.verdict x.borrowed x.borrowTime x.releaseTime o.now with
    | .keep => { holding := h }
    | .release =>
      { holding := h.write c (x.markIdle o.now), ledger := { evictedReleased := 1 } }
    | .close =>
      (o.closes h c x).andThen { holding := h.remove c, ledger := { evictedClosed := 1 } }

theorem attempts_inspects (h : Holding) (c : ContextId) : (o.inspects h c).attempts = [] := by
  rw [inspects]
  split
  · rfl
  · split <;> rfl

/-- The slot of a context is released. -/
def releases (h : Holding) (c : ContextId) : Service :=
  match h.slot? c with
  | none => ⟨{ holding := h }, .released false⟩
  | some x =>
    ⟨{ holding := h.write c (x.markIdle o.now), ledger := { released := 1 } }, .released true⟩

/-- The slot of a context is closed on request. -/
def closesOwn (h : Holding) (c : ContextId) : Service :=
  match h.slot? c with
  | none => ⟨{ holding := h }, .closed false⟩
  | some x =>
    (o.closes h c x).leadsTo
      ⟨{ holding := h.remove c, ledger := { closed := 1 } }, .closed true⟩

/-- A new connection is opened in the room there is, or refused at the limit. -/
def opens (h : Holding) (r : Request) : Service :=
  if h.slots.length + h.pending < o.settings.maxConnections then
    match o.factory.produces? r.channel with
    | none => ⟨{ holding := h.welcome }, .refused (.unsupported r.channel)⟩
    | some produces =>
      let timeout := o.settings.connectTimeout
      let attempts := [(produces, r.identity, timeout)]
      match o.behaviour.refusal? ⟨o.next, produces⟩ r.identity timeout with
      | some e => ⟨{ holding := h.welcome, attempts }, .refused e⟩
      | none =>
        ⟨{ holding := h.welcome.write r.context (.lent ⟨o.next, produces⟩ o.now)
           ledger := { created := 1, borrowed := 1 }
           attempts }, .lent ⟨o.next, produces⟩⟩
  else
    ⟨{ holding := h.welcome, ledger := { overLimit := 1 } },
      .refused (.limitExceeded r.identity r.context h.slots.length o.settings.maxConnections)⟩

/-- Whether a slot can be lent for a channel: it is idle and usable and carries the channel. -/
def suits (channel : Channel) (x : OpenSlot) : Bool :=
  !x.borrowed && (o.behaviour.usable x.handle && x.handle.channel = channel)

/-- A slot of another context, if one was found, moves to the caller; otherwise a new one opens. -/
def takesOver (h : Holding) (r : Request) : Option (ContextId × OpenSlot) → Service
  | some (source, x) =>
    ⟨{ holding := (h.remove source).write r.context (x.markBorrowed o.now)
       ledger := { stolen := 1, borrowed := 1 } }, .lent x.handle⟩
  | none => o.opens h r

/-- The caller has no slot: the others come next. -/
def looksFurther (h : Holding) (r : Request) : Service :=
  o.takesOver h r (h.slots.find? fun p => p.1 ≠ r.context && o.suits r.channel p.2)

/-- **How a borrow is served.** -/
def lends (h : Holding) (r : Request) : Service :=
  match h.slot? r.context with
  | none => o.looksFurther h r
  | some x =>
    if o.behaviour.usable x.handle && x.borrowed then
      ⟨{ holding := h }, .refused (.alreadyBorrowed r.identity r.context)⟩
    else if o.suits r.channel x then
      ⟨{ holding := h.write r.context (x.markBorrowed o.now)
         ledger := { reused := 1, borrowed := 1 } }, .lent x.handle⟩
    else (o.closes h r.context x).leadsTo (o.looksFurther (h.remove r.context) r)

/-- What a call was announced for is done. -/
def performs (h : Holding) (t : Telling) : Service :=
  let a := t.announcement
  match t.purpose with
  | .borrow channel => o.lends h ⟨a.identity, a.context, channel⟩
  | .release => o.releases h a.context
  | .close => o.closesOwn h a.context
  | .tell => ⟨{ holding := h }, .told⟩

/-- The same after an inspection. -/
def serves (h : Holding) (t : Telling) : Service :=
  let d := o.inspects h t.announcement.context
  d.leadsTo (o.performs d.holding t)

/-- Observers are told first, an inspector maybe among them. -/
def attends (observers : List Observer) (h : Holding) (t : Telling) : Service :=
  if .inspector ∈ observers then o.serves h t else o.performs h t

theorem attends_cons_of_ne {observer : Observer} (hne : observer ≠ .inspector)
    (observers : List Observer) (h : Holding) (t : Telling) :
    o.attends (observer :: observers) h t = o.attends observers h t := by
  simp only [attends, List.mem_cons, hne.symm, false_or]

end Occasion

/-! ### What a step does -/

variable {o : Occasion} {s s' s₁ : State} {i : Identity} {e id : Nat} {c : ContextId} {r : Request}

/-- A manager at rest on an occasion. -/
structure Occasion.Meets (o : Occasion) (s : State) : Prop where
  upright : s.Upright
  settings : s.settings = o.settings
  factory : s.factory = o.factory
  below : ∀ j, (s.holding j).Below o.next

theorem Occasion.Meets.turns (hs : o.Meets s) {h : Holding} {l : Ledger} (ht : s.Turns i h l s')
    (hh : h.Below o.next) : o.Meets s' where
  upright := ht.upright
  settings := ht.settings.trans hs.settings
  factory := ht.factory.trans hs.factory
  below j := by
    by_cases hj : j = i
    · rw [hj, ht.holding]
      exact hh
    · rw [ht.others j hj]
      exact hs.below j

/-- From `s` on, a step comes to an service of identity `i`. -/
def Step.Does (o : Occasion) (s : State) (i : Identity) (step : Step) (x : Service) : Prop :=
  ∃ calls s', step.Performs o.behaviour o.now o.next calls s' x.result ∧
    calls.filterMap Call.disconnected? = x.deed.disconnected ∧
    calls.filterMap Call.attempt? = x.deed.attempts ∧ s.Turns i x.deed.holding x.deed.ledger s'

section does
variable {step : Step} {x : Service}

theorem Step.Does.done {h : Holding} {l : Ledger} {result : Result} (ht : s.Turns i h l s') :
    Step.Does o s i (s', .done result) ⟨{ holding := h, ledger := l }, result⟩ :=
  ⟨[], s', .done _ _ _, rfl, rfl, ht⟩

theorem Step.Does.after {h : Holding} {l : Ledger} (ht : s.Turns i h l s₁)
    (hx : step.Does o s₁ i x) :
    step.Does o s i (({ holding := h, ledger := l } : Deed).leadsTo x) := by
  obtain ⟨calls, s', hperforms, hdisconnected, hattempts, ht'⟩ := hx
  exact ⟨calls, s', hperforms, hdisconnected, hattempts, ht.trans ht'⟩

theorem Occasion.Meets.written (hs : o.Meets s) (journal : Journal) : o.Meets { s with journal } :=
  hs.turns (hs.upright.quiet default {} journal) (hs.below default)

theorem Step.Does.written (hs : o.Meets s) (journal : Journal) {f : Holding → Service}
    (hx : step.Does o { s with journal } i (f ({ s with journal }.holding i))) :
    step.Does o s i (f (s.holding i)) := by
  have hquiet : s.Turns i (s.holding i) {} { s with journal } := hs.upright.quiet i {} journal
  have hafter := hx.after hquiet
  rwa [Deed.nothing_leadsTo, hquiet.holding] at hafter

theorem Step.Does.asks {f : Frame} (hd : f.call.disconnected? = none) (ha : f.call.attempt? = none)
    (hx : (resume s₁ o.now f (o.behaviour.answer o.next f.call)).Does o s i x) :
    Step.Does o s i (s₁, .paused f) x := by
  obtain ⟨calls, s', hperforms, hdisconnected, hattempts, ht⟩ := hx
  have hnext : Call.next o.next [f.call] = o.next := by
    cases f <;> first | rfl | cases ha
  refine ⟨f.call :: calls, s', .paused ?_, ?_, ?_, ht⟩
  · rw [hnext]
    exact hperforms
  · rw [List.filterMap_cons_none hd, hdisconnected]
  · rw [List.filterMap_cons_none ha, hattempts]

theorem Step.Does.closed (hs : o.Meets s) (he : s.registry.entryId? i = some e)
    (hmem : (c, id) ∈ s.slotsOf e) (z : OpenSlot) {after : AfterClosing}
    (hx : ∀ s₁, s₁.registry.entryId? i = some e →
      s.Turns i ((s.holding i).remove c) (o.closes (s.holding i) c z).ledger s₁ →
      (resumeClosing s₁ o.now ⟨i, e, id, c, z.handle⟩ after).Does o s₁ i x) :
    (s.close ⟨i, e, id, c, z.handle⟩ after).Does o s i
      ((o.closes (s.holding i) c z).leadsTo x) := by
  have ht := hs.upright.closes (x := ⟨i, e, id, c, z.handle⟩) he hmem
    (o.behaviour.complaint? z.handle)
  have hknown : ((s.beginClosing ⟨i, e, id, c, z.handle⟩).finishClosing ⟨i, e, id, c, z.handle⟩
      (o.behaviour.complaint? z.handle)).registry.entryId? i = some e := by
    rw [State.registry_finishClosing]
    exact he
  obtain ⟨calls, s', hperforms, hdisconnected, hattempts, ht'⟩ := hx _ hknown ht
  refine ⟨.disconnect z.handle :: calls, s', .paused hperforms, ?_, ?_, ht.trans ht'⟩
  · show z.handle :: calls.filterMap Call.disconnected? = z.handle :: x.deed.disconnected
    rw [hdisconnected]
  · show calls.filterMap Call.attempt? = x.deed.attempts
    exact hattempts

theorem Step.Does.connects {h : Holding} {l : Ledger} {produces : Channel} {timeout : Duration}
    {result : Result} (hend : resumeOpening s₁ o.now r e ⟨⟨o.next, produces⟩,
      o.behaviour.refusal? ⟨o.next, produces⟩ r.identity timeout⟩ = (s', .done result))
    (ht : s.Turns i h l s') : Step.Does o s i (s₁, .paused (.opening r e produces timeout))
      ⟨{ holding := h, ledger := l, attempts := [(produces, r.identity, timeout)] }, result⟩ := by
  refine ⟨[.connect produces r.identity timeout], s', .paused ?_, rfl, rfl, ht⟩
  have hdone : Step.Performs o.behaviour o.now (o.next + 1) (resumeOpening s₁ o.now r e
      ⟨⟨o.next, produces⟩, o.behaviour.refusal? ⟨o.next, produces⟩ r.identity timeout⟩) [] s'
      result := by
    rw [hend]
    exact .done _ _ _
  exact hdone

end does

/-! ### The caller's own slot -/

theorem State.slot?_holding_of_none (hi : s.registry.entryId? i = none) :
    (s.holding i).slot? c = none := by
  rw [State.holding_of_none hi]
  rfl

theorem State.Upright.own (hs : s.Upright) (he : s.registry.entryId? i = some e) (c : ContextId) :
    ((s.holding i).slot? c = none ∧ s.slotIn? e c = none ∧ s.ownClosing? i e c = none) ∨
    ∃ id x, (s.holding i).slot? c = some x ∧ s.slotIn? e c = some id ∧ (c, id) ∈ s.slotsOf e ∧
      s.openSlot? (c, id) = some x ∧ s.ownClosing? i e c = some ⟨i, e, id, c, x.handle⟩ := by
  have hslot := hs.slot?_holding he c
  cases hid : s.slotIn? e c with
  | none =>
    rw [hid] at hslot
    refine .inl ⟨hslot, rfl, ?_⟩
    have hget : (s.registry.entry e).slot? c = none := hid
    rw [State.ownClosing?, hget]
    rfl
  | some id =>
    have hmem := Registry.mem_of_slotIn? hid
    obtain ⟨x, hx⟩ := (hs.live_of_some he).present (c, id) hmem
    rw [hid, Option.bind_some, hx] at hslot
    refine .inr ⟨id, x, hslot, rfl, hmem, hx, ?_⟩
    have hget : (s.registry.entry e).slot? c = some id := hid
    rw [State.ownClosing?, hget, Option.bind_some, State.openHandle?_of_openSlot? hx]
    rfl

/-- The caller's own slot as a call of the caller finds it: there is none, as it is for an identity
that is not known, or it is open in its entry. -/
theorem State.Upright.ownSlot (hs : s.Upright) (i : Identity) (c : ContextId) :
    ((s.holding i).slot? c = none ∧ s.registry.slot? i c = none ∧
      ((s.registry.entryId? i).bind fun e => s.ownClosing? i e c) = none) ∨
    ∃ e id x, s.registry.entryId? i = some e ∧ (s.holding i).slot? c = some x ∧
      s.registry.slot? i c = some id ∧ (c, id) ∈ s.slotsOf e ∧ s.openSlot? (c, id) = some x ∧
      ((s.registry.entryId? i).bind fun e => s.ownClosing? i e c) =
        some ⟨i, e, id, c, x.handle⟩ := by
  cases he : s.registry.entryId? i with
  | none =>
    refine .inl ⟨State.slot?_holding_of_none he, ?_, rfl⟩
    rw [Registry.slot?, he]
    rfl
  | some e =>
    rw [Registry.slot?_entry he, Option.bind_some]
    rcases hs.own he c with ⟨hslot, hid, hown⟩ | ⟨id, x, hslot, hid, hmem, hx, hown⟩
    · exact .inl ⟨hslot, hid, hown⟩
    · exact .inr ⟨e, id, x, rfl, hslot, hid, hmem, hx, hown⟩

theorem State.idleHandle?_of_openSlot? {x : OpenSlot} (hx : s.openSlot? (c, id) = some x) :
    s.idleHandle? c id = if x.borrowed then none else some x.handle := by
  obtain ⟨y, hy, howner, hhandle, hborrowed, -⟩ := State.openSlot?_eq_some hx
  rw [State.idleHandle?, hy, Option.bind_some, hborrowed,
    Slot.openFor_eq_some.mpr ⟨howner, hhandle⟩]

theorem State.openSlot?_markIdle (s : State) (c : ContextId) (id now : Nat) :
    (s.mapSlot id (·.markIdle now)).openSlot? (c, id) =
      (s.openSlot? (c, id)).map (·.markIdle now) := by
  rw [State.openSlot?, State.slot?_mapSlot_self, State.openSlot?, Option.bind_map, Option.map_bind]
  exact congrArg (Option.bind (s.slot? id)) (funext fun x => x.under?_markIdle c now)

theorem State.openSlot?_markBorrowed (s : State) (c : ContextId) (id now : Nat) :
    (s.mapSlot id (·.markBorrowed now)).openSlot? (c, id) =
      (s.openSlot? (c, id)).map (·.markBorrowed now) := by
  rw [State.openSlot?, State.slot?_mapSlot_self, State.openSlot?, Option.bind_map, Option.map_bind]
  exact congrArg (Option.bind (s.slot? id)) (funext fun x => x.under?_markBorrowed c now)

theorem State.Upright.marksIdle (hs : s.Upright) (he : s.registry.entryId? i = some e)
    (hmem : (c, id) ∈ s.slotsOf e) {x : OpenSlot} (hx : s.openSlot? (c, id) = some x) (now : Nat) :
    s.Turns i ((s.holding i).write c (x.markIdle now)) {} (s.mapSlot id (·.markIdle now)) :=
  hs.mark he hmem (f := (·.markIdle now)) (fun _ => rfl) (by
    rw [State.openSlot?_markIdle, hx, Option.map_some])

theorem does_release (hs : o.Meets s) (i : Identity) (c : ContextId) :
    (release s o.now i c).Does o s i (o.releases (s.holding i) c) := by
  rw [release]
  rcases hs.upright.ownSlot i c with ⟨hslot, hid, -⟩ | ⟨e, id, x, he, hslot, hid, hmem, hx, -⟩
  · rw [hid, Occasion.releases, hslot]
    exact .done (hs.upright.quiet i {} _)
  · rw [hid, Option.bind_some, State.openHandle?_of_openSlot? hx, Occasion.releases, hslot]
    have hmark := hs.upright.marksIdle he hmem hx o.now
    refine .done (l := { released := 1 }) ?_
    exact hmark.holding ▸ hmark.trans (hmark.upright.quiet i { released := 1 } _)

theorem does_closeOwn (hs : o.Meets s) (i : Identity) (c : ContextId) :
    (closeOwn s i c).Does o s i (o.closesOwn (s.holding i) c) := by
  rw [closeOwn]
  rcases hs.upright.ownSlot i c with ⟨hslot, -, hown⟩ | ⟨e, id, x, he, hslot, -, hmem, -, hown⟩
  · rw [hown, Occasion.closesOwn, hslot]
    exact .done (hs.upright.quiet i {} _)
  · rw [hown, Occasion.closesOwn, hslot]
    refine .closed hs he hmem x fun s₁ _ ht => ?_
    exact .done (ht.holding ▸ ht.upright.quiet i { closed := 1 } s₁.journal)

/-! ### A new connection -/

section opening
variable (hs : o.Meets s) (r : Request) (he : s.registry.entryId? r.identity = some e)
  (hown : s.slotIn? e r.context = none)
include hs he hown

theorem turns_resumeOpening (produces : Channel) :
    ∃ s', resumeOpening { s with registry := s.registry.claim e } o.now r e
        ⟨⟨o.next, produces⟩, none⟩ = (s', .done (.lent ⟨o.next, produces⟩)) ∧
      s.Turns r.identity ((s.holding r.identity).write r.context (.lent ⟨o.next, produces⟩ o.now))
        { created := 1, borrowed := 1 } s' := by
  have hcancel : (s.registry.claim e).cancel e = s.registry := Registry.cancel_claim s.registry e
  have hget : (s.registry.entry e).slot? r.context = none := hown
  have hkeys : r.context ∉ Keyed.keys (s.slotsOf e) := (Keyed.get?_eq_none_iff _ _).mp hget
  have hregisters := hs.upright.registers (h := ⟨o.next, produces⟩) he hkeys (fun j p hp heq =>
    absurd (hs.below j p hp) (by rw [heq]; exact Nat.lt_irrefl _)) o.now
  refine ⟨_, ?_, hregisters.holding ▸ hregisters.trans
    (hregisters.upright.quiet r.identity { created := 1, borrowed := 1 }
      (((s.journal.push (.opened r.identity r.channel))).push
        (.registered r.identity r.context r.channel)))⟩
  rw [resumeOpening]
  dsimp only [State.note]
  rw [Registry.commit, hcancel, Registry.insert, hget]
  rfl

theorem does_openNew (hroom : (s.holding r.identity).slots.length + (s.holding r.identity).pending <
      o.settings.maxConnections) :
    (openNew { s with registry := s.registry.claim e } r e).Does o s r.identity
      (o.opens (s.holding r.identity) r) := by
  have hwelcome : (s.holding r.identity).welcome = s.holding r.identity := by
    rw [State.holding_of_some he]
    rfl
  have hcancel : (s.registry.claim e).cancel e = s.registry := Registry.cancel_claim s.registry e
  rw [Occasion.opens, if_pos hroom, openNew, hwelcome, ← hs.factory, ← hs.settings]
  dsimp only
  cases s.factory.produces? r.channel with
  | none =>
    dsimp only
    rw [hcancel]
    exact .done (hs.upright.quiet r.identity {} _)
  | some produces =>
    dsimp only
    cases hrefusal : o.behaviour.refusal? ⟨o.next, produces⟩ r.identity s.settings.connectTimeout with
    | some error =>
      refine .connects ?_ (hs.upright.quiet r.identity {} s.journal)
      rw [hrefusal, resumeOpening, hcancel]
      rfl
    | none =>
      obtain ⟨s', hopened, ht⟩ := turns_resumeOpening hs r he hown produces
      exact .connects (hrefusal ▸ hopened) ht

end opening

theorem does_claim (hs : o.Meets s) (r : Request)
    (hown : (s.holding r.identity).slot? r.context = none) :
    (claim s r).Does o s r.identity (o.opens (s.holding r.identity) r) := by
  have hwelcomes := hs.upright.welcomes r.identity
  have he := (hs.upright.awaits (i := r.identity)).known
  have hopens : o.opens (s.holding r.identity) r = (({ holding := (s.holding r.identity).welcome } :
      Deed).leadsTo (o.opens (s.holding r.identity).welcome r)) := by
    rw [Deed.nothing_leadsTo]
    rfl
  rw [hopens, claim, Registry.reserve]
  generalize s.registry.ensure r.identity = ensured at hwelcomes he ⊢
  obtain ⟨registry, e⟩ := ensured
  dsimp only at hwelcomes he ⊢
  refine .after hwelcomes ?_
  rw [← hwelcomes.holding]
  set s₁ : State := { s with registry } with hs₁
  have hmeets : o.Meets s₁ := hs.turns hwelcomes (hs.below r.identity)
  have he₁ : s₁.registry.entryId? r.identity = some e := he
  have hown₁ : (s₁.holding r.identity).slot? r.context = none := by
    rw [hwelcomes.holding]
    exact hown
  have hlength : (s₁.holding r.identity).slots.length = (registry.entry e).size := by
    rw [State.holding_of_some he₁]
    exact State.length_shown (hmeets.upright.live_of_some he₁).present
  have hpending : (s₁.holding r.identity).pending = (registry.entry e).pending := by
    rw [State.holding_of_some he₁]
    rfl
  have hroom : (registry.entry e).hasRoom s.settings.maxConnections = true ↔
      (s₁.holding r.identity).slots.length + (s₁.holding r.identity).pending <
        o.settings.maxConnections := by
    rw [hlength, hpending, ← hs.settings, Entry.hasRoom, decide_eq_true_eq]
  by_cases h : (registry.entry e).hasRoom s.settings.maxConnections = true
  · rw [if_pos h]
    refine does_openNew hmeets r he₁ ?_ (hroom.mp h)
    rcases hmeets.upright.own he₁ r.context with ⟨-, hid, -⟩ | ⟨id, x, hslot, -⟩
    · exact hid
    · rw [hown₁] at hslot
      cases hslot
  · have hcount : s₁.registry.slotCount r.identity = (s₁.holding r.identity).slots.length := by
      rw [hlength, Registry.slotCount, Registry.entryOf, he₁]
    have hwelcome : (s₁.holding r.identity).welcome = s₁.holding r.identity := by
      rw [State.holding_of_some he₁]
      rfl
    rw [if_neg h, Occasion.opens, if_neg (mt hroom.mpr h), hwelcome, ← hcount, ← hs.settings]
    exact .done (hmeets.upright.quiet r.identity { overLimit := 1 } _)

/-! ### The slots of other contexts -/

theorem does_takeOver (hs : o.Meets s) (r : Request) (he : s.registry.entryId? r.identity = some e)
    (hown : (s.holding r.identity).slot? r.context = none) {l : List (ContextId × Nat)}
    (hl : l ⊆ s.slotsOf e) : (takeOver s r e l).Does o s r.identity
      (o.takesOver (s.holding r.identity) r
        ((s.shown l).find? fun p => p.1 ≠ r.context && o.suits r.channel p.2)) := by
  induction l with
  | nil =>
    rw [takeOver]
    exact does_claim hs r hown
  | cons k l ih =>
    obtain ⟨owner, id⟩ := k
    have hmem : (owner, id) ∈ s.slotsOf e := hl List.mem_cons_self
    obtain ⟨x, hx⟩ := (hs.upright.live_of_some he).present _ hmem
    have hrest := ih fun k hk => hl (List.mem_cons_of_mem _ hk)
    rw [takeOver, State.shown_cons hx, List.find?_cons]
    by_cases hc : owner = r.context
    · rw [if_pos hc]
      simpa [hc] using hrest
    · have hskip : ∀ b, (decide (owner ≠ r.context) && b) = b := fun b => by
        rw [decide_eq_true hc, Bool.true_and]
      rw [if_neg hc, State.idleHandle?_of_openSlot? hx, hskip, Occasion.suits]
      cases hb : x.borrowed with
      | true => exact hrest
      | false =>
        refine .asks rfl rfl ?_
        show (resumeOther s o.now r e owner id x.handle l (o.behaviour.usable x.handle)).Does o s _ _
        rw [resumeOther, Bool.not_false, Bool.true_and]
        by_cases hsuits :
            (o.behaviour.usable x.handle && decide (x.handle.channel = r.channel)) = true
        · have hget : (s.registry.entry e).slot? r.context = none := by
            rcases hs.upright.own he r.context with ⟨-, hid, -⟩ | ⟨id', x', hslot, -⟩
            · exact hid
            · rw [hown] at hslot
              cases hslot
          have hsource : (s.registry.entry e).slot? owner = some id :=
            (Keyed.get?_eq_some_iff (hs.upright.live_of_some he).keys _ _).mpr hmem
          have hkeys : r.context ∉ Keyed.keys (s.slotsOf e) := (Keyed.get?_eq_none_iff _ _).mp hget
          have hmoves := hs.upright.reassigns he hmem hx hkeys o.now
          have hdetached : ((s.registry.detach e owner id).entry e).slot? r.context = none := by
            have hslot := Registry.slotIn?_detach (r := s.registry) (e := e) e owner id r.context
            rw [if_neg fun h => hc h.2.1] at hslot
            exact hslot.trans hget
          rw [if_pos hsuits, hsuits, Registry.reassign?, if_pos hsource, Registry.insert, hdetached]
          refine .done (l := { stolen := 1, borrowed := 1 }) ?_
          exact hmoves.holding ▸ hmoves.trans
            (hmoves.upright.quiet r.identity { stolen := 1, borrowed := 1 } _)
        · rw [if_neg hsuits, Bool.eq_false_iff.mpr hsuits]
          exact hrest

/-! ### Borrows -/

section borrow
variable (hs : o.Meets s) (r : Request) (he : s.registry.entryId? r.identity = some e)
include hs he

theorem does_others (hown : (s.holding r.identity).slot? r.context = none) :
    (takeOver s r e (s.slotsOf e)).Does o s r.identity
      (o.looksFurther (s.holding r.identity) r) := by
  rw [Occasion.looksFurther, State.slots_holding he]
  exact does_takeOver hs r he hown fun _ hk => hk

theorem does_closeUseless {x : OpenSlot} (hmem : (r.context, id) ∈ s.slotsOf e) :
    (closeUseless s r e id x.handle).Does o s r.identity
      ((o.closes (s.holding r.identity) r.context x).leadsTo
        (o.looksFurther ((s.holding r.identity).remove r.context) r)) := by
  refine .closed hs he hmem x fun s₁ he₁ ht => ?_
  have hmeets : o.Meets s₁ := hs.turns ht ((hs.below r.identity).remove r.context)
  rw [← ht.holding]
  refine does_others hmeets r he₁ ?_
  rw [ht.holding]
  exact Keyed.get?_erase_self _ _

theorem does_reuse : (reuse s r e).Does o s r.identity (o.lends (s.holding r.identity) r) := by
  rw [reuse, Occasion.lends]
  rcases hs.upright.own he r.context with ⟨hslot, -, hown⟩ | ⟨id, x, hslot, -, hmem, hx, hown⟩
  · rw [hown, hslot]
    exact does_others hs r he hslot
  · rw [hown, hslot]
    refine .asks rfl rfl ?_
    show (resumeOwn s r e id x.handle (o.behaviour.usable x.handle)).Does o s _ _
    have hborrowed : (s.slot? id).any (·.borrowed) = x.borrowed := State.isLent_of_openSlot? hx
    have huseless : ∀ n, (closeUseless (s.note n) r e id x.handle).Does o s r.identity
        ((o.closes (s.holding r.identity) r.context x).leadsTo
          (o.looksFurther ((s.holding r.identity).remove r.context) r)) := fun n =>
      .written hs (s.journal.push n) (f := fun h => (o.closes h r.context x).leadsTo
        (o.looksFurther (h.remove r.context) r))
      (does_closeUseless (hs.written (s.journal.push n)) r he hmem)
    have hsuits : o.suits r.channel x = (!x.borrowed &&
      (o.behaviour.usable x.handle && decide (x.handle.channel = r.channel))) := rfl
    rw [resumeOwn, hborrowed]
    dsimp only
    rw [hsuits]
    cases hu : o.behaviour.usable x.handle with
    | false =>
      rw [Bool.false_and, Bool.false_and, Bool.and_false]
      exact huseless _
    | true =>
      cases hb : x.borrowed with
      | true => exact .done (hs.upright.quiet r.identity {} s.journal)
      | false =>
        refine .asks rfl rfl ?_
        show (resumeOwnAgain s o.now r e id x.handle (o.behaviour.usable x.handle)).Does o s _ _
        rw [resumeOwnAgain, hu]
        by_cases hchannel : x.handle.channel = r.channel
        · have hmark := hs.upright.mark he hmem (f := (·.markBorrowed o.now)) (fun _ => rfl)
            (x := x.markBorrowed o.now) (by rw [State.openSlot?_markBorrowed, hx]; rfl)
          rw [decide_eq_true hchannel]
          refine .done (l := { reused := 1, borrowed := 1 }) ?_
          exact hmark.holding ▸ hmark.trans
            (hmark.upright.quiet r.identity { reused := 1, borrowed := 1 } _)
        · rw [decide_eq_false hchannel]
          exact huseless _

end borrow

theorem does_borrow (hs : o.Meets s) (r : Request) :
    (borrow s r).Does o s r.identity (o.lends (s.holding r.identity) r) := by
  rw [borrow]
  cases he : s.registry.entryId? r.identity with
  | some e => exact does_reuse hs r he
  | none =>
    have hslot : (s.holding r.identity).slot? r.context = none := State.slot?_holding_of_none he
    have hslots : (s.holding r.identity).slots = [] := by rw [State.holding_of_none he]
    rw [Occasion.lends, hslot]
    dsimp only
    rw [Occasion.looksFurther, hslots]
    exact does_claim hs r hslot

theorem does_perform (hs : o.Meets s) (t : Telling) :
    (perform s o.now t).Does o s t.announcement.identity
      (o.performs (s.holding t.announcement.identity) t) := by
  rw [perform, Occasion.performs]
  cases t.purpose with
  | borrow channel => exact does_borrow hs ⟨t.announcement.identity, t.announcement.context, channel⟩
  | release => exact does_release hs _ _
  | close => exact does_closeOwn hs _ _
  | tell => exact .done (hs.upright.quiet _ {} s.journal)

/-! ### Inspections -/

theorem Occasion.inspects_again (o : Occasion) (h : Holding) (c : ContextId) :
    o.inspects (o.inspects h c).holding c = { holding := (o.inspects h c).holding } := by
  cases hx : h.slot? c with
  | none =>
    have hkept : o.inspects h c = { holding := h } := by rw [inspects, hx]
    rw [hkept]
    exact hkept
  | some x =>
    cases hv : o.settings.retention.verdict x.borrowed x.borrowTime x.releaseTime o.now with
    | keep =>
      have hkept : o.inspects h c = { holding := h } := by
        rw [inspects, hx]
        dsimp only
        rw [hv]
      rw [hkept]
      exact hkept
    | release =>
      have hidle : (o.inspects h c).holding = h.write c (x.markIdle o.now) := by
        rw [inspects, hx]
        dsimp only
        rw [hv]
      have hslot : (h.write c (x.markIdle o.now)).slot? c = some (x.markIdle o.now) :=
        Keyed.get?_put_self _ _ _
      have hagain : o.settings.retention.verdict (x.markIdle o.now).borrowed
          (x.markIdle o.now).borrowTime (x.markIdle o.now).releaseTime o.now = .keep := by
        simp [RetentionPolicy.verdict, OpenSlot.markIdle, State.idleExpired_now]
      rw [hidle, inspects, hslot]
      dsimp only
      rw [hagain]
    | close =>
      have hgone : (o.inspects h c).holding = h.remove c := by
        rw [inspects, hx]
        dsimp only
        rw [hv]
        rfl
      have hslot : (h.remove c).slot? c = none := Keyed.get?_erase_self _ _
      rw [hgone, inspects, hslot]

theorem does_inspect (hs : o.Meets s) (t : Telling) (observers : List Observer)
    {f : Holding → Service} (hf : ∀ {s₁}, o.Meets s₁ →
      (tell o.now t s₁ observers).Does o s₁ t.announcement.identity
        (f (s₁.holding t.announcement.identity))) :
    (tell o.now t s (.inspector :: observers)).Does o s t.announcement.identity
      ((o.inspects (s.holding t.announcement.identity) t.announcement.context).leadsTo
        (f (o.inspects (s.holding t.announcement.identity) t.announcement.context).holding)) := by
  rw [tell, inspect]
  rcases hs.upright.ownSlot t.announcement.identity t.announcement.context with
    ⟨hslot, -, hown⟩ | ⟨e, id, x, he, hslot, -, hmem, hx, hown⟩
  · rw [hown, Occasion.inspects, hslot]
    dsimp only
    rw [Deed.nothing_leadsTo]
    exact hf hs
  · rw [hown, Occasion.inspects, hslot]
    dsimp only
    rw [State.verdict_of_openSlot? hx, State.policy, hs.settings]
    cases o.settings.retention.verdict x.borrowed x.borrowTime x.releaseTime o.now with
    | keep =>
      dsimp only
      rw [Deed.nothing_leadsTo]
      exact hf hs
    | release =>
      have hmark := hs.upright.marksIdle he hmem hx o.now
      have ht := hmark.trans (hmark.upright.quiet t.announcement.identity { evictedReleased := 1 }
        ((s.journal.push (.borrowTimedOut t.announcement.identity t.announcement.context)).push
          (.inspected t.announcement.identity t.announcement.context .release)))
      rw [hmark.holding, Ledger.empty_add] at ht
      refine .after ht ?_
      rw [← ht.holding]
      have hnumber : x.handle.number < o.next := (hs.below _).slot? hslot
      exact hf (hs.turns ht ((hs.below _).write _ hnumber))
    | close =>
      dsimp only
      rw [Deed.andThen_leadsTo]
      refine .closed hs he hmem x fun s₁ _ ht => ?_
      have hmeets := hs.turns ht ((hs.below _).remove _)
      have hbooked := hmeets.upright.quiet t.announcement.identity { evictedClosed := 1 }
        ((s₁.journal.push (.idleTimedOut t.announcement.identity t.announcement.context)).push
          (.inspected t.announcement.identity t.announcement.context .close))
      have hthen := (hf (hmeets.turns hbooked (hmeets.below _))).after hbooked
      rw [hbooked.holding, ht.holding] at hthen
      exact hthen

/-- Observers are told, and what the call was announced for is done. -/
theorem does_tell (hs : o.Meets s) (t : Telling) (observers : List Observer) :
    (tell o.now t s observers).Does o s t.announcement.identity
      (o.attends observers (s.holding t.announcement.identity) t) := by
  induction observers generalizing s with
  | nil =>
    rw [tell, Occasion.attends, if_neg List.not_mem_nil]
    exact does_perform hs t
  | cons observer observers ih =>
    cases observer with
    | log =>
      obtain ⟨journal, hsummary⟩ := (s.note (.managerCall t.announcement)).exists_journal_summarize
      rw [tell, hsummary, o.attends_cons_of_ne (by simp)]
      exact .written hs journal (f := (o.attends observers · t)) (ih (hs.written journal))
    | poolInspector =>
      rw [tell, o.attends_cons_of_ne (by simp)]
      exact ih hs
    | recorder p =>
      rw [tell, o.attends_cons_of_ne (by simp)]
      exact .asks rfl rfl (ih hs)
    | inspector =>
      have hinspects := does_inspect hs t observers (f := (o.attends observers · t)) fun hs₁ => ih hs₁
      rw [Occasion.attends, if_pos List.mem_cons_self]
      by_cases hmem : Observer.inspector ∈ observers
      · rw [Occasion.attends, if_pos hmem, Occasion.serves, Occasion.inspects_again,
          Deed.nothing_leadsTo] at hinspects
        exact hinspects
      · rw [Occasion.attends, if_neg hmem] at hinspects
        exact hinspects

/-- **An operation that nothing comes between** does for its identity what it is specified to do. -/
theorem does_start (hs : o.Meets s) {k : Command} {t : Telling} (ht : k.telling? = some t) :
    (start s o.now k).Does o s t.announcement.identity
      (o.attends s.observers (s.holding t.announcement.identity) t) := by
  have hstart : start s o.now k = tell o.now t s s.observers := by
    cases k <;> first | cases ht; rfl | cases ht
  rw [hstart]
  exact does_tell hs t s.observers

/-! ### Managers of a run -/

/-- A manager of a run that is not disconnecting anything, when handles are numbered on. -/
theorem Reachable.meets {m : System} (hm : Reachable .calm m)
    (hyields : ∀ o ∈ m.ongoing, o.frame.call.yields) (hsettings : o.settings = m.state.settings)
    (hfactory : o.factory = m.state.factory) (hnext : ∀ h ∈ m.built, h.number < o.next) :
    o.Meets m.state := by
  have hupright := hm.upright hyields
  refine ⟨hupright, hsettings.symm, hfactory.symm, fun j p hp => hnext _ ?_⟩
  obtain ⟨g, hg⟩ := hm.calm_good
  cases hj : m.state.registry.entryId? j with
  | none =>
    rw [State.holding_of_none hj] at hp
    cases hp
  | some e =>
    rw [State.slots_holding hj] at hp
    obtain ⟨k, -, hshown⟩ := List.mem_filterMap.mp hp
    obtain ⟨x, hx, rfl⟩ := Option.map_eq_some_iff.mp hshown
    have hhandle := (State.openHandle?_eq_some (State.openHandle?_of_openSlot? hx)).2
    rw [← hg.state] at hhandle
    obtain ⟨_, i, -, -, hopened⟩ := (hg.sound trivial).accounted.held k.2 x.handle hhandle
    exact hg.built _ (hg.opened ▸ hopened)

end Affine

end ConnectionLeasing

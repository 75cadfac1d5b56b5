import ConnectionLeasing.Proofs.Affine.Observing
import ConnectionLeasing.Proofs.Affine.Priority
import ConnectionLeasing.Proofs.Affine.Timely
import ConnectionLeasing.Proofs.Affine.Walk

/-!
# What a borrow looks at before it lends a slot

The inspector looks at the caller's own slot when a borrow begins, and at no other. So a borrow that
finds its context with a slot of its own does not lend it after it was idle for too long, but a slot
that it takes over from another context may have been idle for any time since the last sweep.

The borrow may wait for observers and for its connection, and anything may happen meanwhile. Checks
and disconnects do not call back.

* `Change.unexpired`: no operation makes the slot of a context expire for a moment that has passed.
* `Borrows`: a borrow that has begun waits at a frame. `Borrows.sound`: what it relies on there.
* `own_slot_vetted`: where a handle comes from that a borrow hands out.
-/

namespace ConnectionLeasing.Affine

/-- A slot that the context has for the identity, if it is idle, had not been so for too long at
moment `t`. -/
def State.Unexpired (s : State) (t : Nat) (i : Identity) (c : ContextId) : Prop :=
  ∀ id x, s.registry.slot? i c = some id → s.slot? id = some x → x.borrowed = false →
    s.policy.idleExpired x.releaseTime t = false

/-! ### While others move -/

section changes
variable {k : Command} {now t : Nat} {g g' : Stage} {i : Identity} {c : ContextId}

/-- **No change makes the slot of a context expire for a moment that has passed.** -/
theorem Change.unexpired (h : Change True k now g g') (hs : g.Sound) (ht : t ≤ now)
    (hg : g.state.Unexpired t i c) : g'.state.Unexpired t i c := by
  intro id x hid hx hidle
  obtain ⟨e, he, hin⟩ := Option.bind_eq_some_iff.mp hid
  rcases h.stamped hs hin hx with hfresh | ⟨hold, y, hy, hborrowed, -, hreleased⟩
  · have hkept := hfresh.not_late (p := g'.state.policy) ht
    rwa [RetentionPolicy.late_of_idle hidle, Bool.not_eq_true] at hkept
  · have hslot : g.state.registry.slot? i c = some id :=
      Option.bind_eq_some_iff.mpr ⟨e, h.entryId?_of_slotIn? he hold, hold⟩
    rw [State.policy, h.settings, ← hreleased]
    exact hg id y hslot hy (hborrowed.trans hidle)

theorem Trail.unexpired (h : Trail True k now g g') (hs : g.Sound) (ht : t ≤ now)
    (hg : g.state.Unexpired t i c) : g'.state.Unexpired t i c := by
  induction h with
  | refl => exact hg
  | tail htrail hchange ih => exact hchange.unexpired (Trail.sound trivial htrail hs) ht ih

theorem Moves.unexpired {m m' : System} {k : Option Command} (hm : Reachable .calm m)
    (h : Moves .calm m k m') (ht : t ≤ m.now) (hc : m.state.Unexpired t i c) :
    m'.state.Unexpired t i c := by
  obtain ⟨g, hg⟩ := hm.calm_good
  obtain ⟨g', hp⟩ := hg.next (fun _ _ _ h => h) h
  obtain ⟨claim, closing, hx, -, htrail, -⟩ := hp.trail
  rw [← hp.good.state]
  refine htrail.unexpired ((hg.sound trivial).inHand claim (hx trivial)) ht ?_
  show g.state.Unexpired t i c
  rw [hg.state]
  exact hc

theorem State.Unexpired.written {s s' : State} (h : s.Unexpired t i c) (hs : s.SameTables s') :
    s'.Unexpired t i c := by
  obtain ⟨_, _, _, rfl⟩ := hs
  exact h

end changes

/-! ### What a borrow relies on -/

/-- The handle is in an idle slot of the identity and has the channel asked for. If the slot is the
caller's own, it had not been idle for too long at moment `t`. -/
def State.Offers (s : State) (t : Nat) (r : Request) (h : Handle) : Prop :=
  ∃ c id x, s.registry.slot? r.identity c = some id ∧ s.slot? id = some x ∧ x.handle = some h ∧
    x.borrowed = false ∧ h.channel = r.channel ∧
    (c = r.context → (Duration.elapsed t x.releaseTime).nanos ≤ s.policy.idleTimeout.nanos)

/-- What a borrow for `r` that began in `m` relies on where it waits. -/
def Frame.Vetted (m : System) (r : Request) (s : State) : Frame → Prop
  | .telling .. => s.Unexpired m.now r.identity r.context
  | .checkingOwn _ e .. | .recheckingOwn _ e .. =>
    s.registry.entryId? r.identity = some e ∧ s.Unexpired m.now r.identity r.context
  | .checkingOther _ e .. | .closing _ (.ownUseless _ e) => s.registry.entryId? r.identity = some e
  | .closing c (.inspected ..) => s.registry.entryId? r.identity = some c.entry ∧
    c.owner = r.context ∧ s.slotIn? c.entry r.context = some c.slot
  | .closing _ (.displacedByTaken ..) => False
  | .closing _ (.displacedByOpened _ h) => h ∉ m.built
  | _ => True

/-- A step of a borrow lends only what it may, and has found what its frame relies on. -/
structure Vetted (may : Handle → Prop) (m : System) (r : Request) (step : Step) : Prop where
  lends : ∀ h, step.2 = .done (.lent h) → may h
  waits : ∀ f, step.2 = .paused f → f.Vetted m r step.1

section steps
variable {may : Handle → Prop} {m : System} {r : Request} {s : State} {e : Nat}

theorem Vetted.imp {may' : Handle → Prop} {step : Step} (h : Vetted may m r step)
    (hmay : ∀ h, may h → may' h) : Vetted may' m r step :=
  ⟨fun x hx => hmay x (h.lends x hx), h.waits⟩

theorem vetted_paused {f : Frame} (hf : f.Vetted m r s) : Vetted may m r (s, .paused f) where
  lends _ h := by cases h
  waits _ h := by
    cases h
    exact hf

theorem vetted_refused (s : State) (error : LeaseError) :
    Vetted may m r (s, .done (.refused error)) where
  lends _ h := by cases h
  waits _ h := by cases h

theorem vetted_lent {h : Handle} (hh : may h) : Vetted may m r (s, .done (.lent h)) where
  lends _ h' := by
    cases h'
    exact hh
  waits _ h' := by cases h'

theorem vetted_claim (s : State) (r' : Request) : Vetted may m r (claim s r') := by
  unfold claim
  split
  · unfold openNew
    split
    · exact vetted_paused trivial
    · exact vetted_refused _ _
  · exact vetted_refused _ _

theorem vetted_takeOver (he : s.registry.entryId? r.identity = some e) (r' : Request)
    (slots : List (ContextId × Nat)) : Vetted may m r (takeOver s r' e slots) := by
  induction slots with
  | nil => exact vetted_claim s r'
  | cons p others ih =>
    rw [takeOver]
    split
    · exact ih
    · split
      · exact vetted_paused he
      · exact ih

theorem vetted_borrow (hs : s.Unexpired m.now r.identity r.context) :
    Vetted may m r (borrow s r) := by
  rw [borrow]
  split
  · rename_i e he
    rw [reuse]
    split
    · exact vetted_paused ⟨he, hs⟩
    · exact vetted_takeOver he r _
  · exact vetted_claim s r

end steps

/-! ### The moves of a borrow -/

section moves
variable {may : Handle → Prop} {m : System} {r : Request} {now : Nat} {D : List Handle}
  {O : List (Identity × Handle)} {g : Stage}

theorem unexpired_of_inspect {a : Announcement} {s : State} (hg : g.Ready True D O)
    (hs : inspect g.state now a = (s, none)) : s.Unexpired now a.identity a.context := by
  unfold inspect at hs
  split at hs
  · rename_i hnone
    cases hs
    intro id x hid
    obtain ⟨e, he, hin⟩ := Option.bind_eq_some_iff.mp hid
    rw [he, Option.bind_some] at hnone
    cases (hg.slotIn?_eq_none (r := ⟨a.identity, a.context, default⟩) hnone).symm.trans hin
  · rename_i c hc
    obtain ⟨e, he, hown⟩ := Option.bind_eq_some_iff.mp hc
    obtain ⟨-, -, -, hslot, -⟩ := State.ownClosing?_eq_some hown
    have hself : ∀ id, g.state.registry.slot? a.identity a.context = some id → c.slot = id := by
      intro id hid
      rw [Registry.slot?_entry he] at hid
      exact Option.some.inj (hslot.symm.trans hid)
    split at hs
    · cases hs
      intro id x hid hx hidle
      obtain rfl := hself id hid
      have hmarked : (g.state.mapSlot c.slot (·.markIdle now)).slot? c.slot = some x := hx
      rw [State.slot?_mapSlot_self] at hmarked
      obtain ⟨y, -, rfl⟩ := Option.map_eq_some_iff.mp hmarked
      exact State.idleExpired_now _ now
    · cases hs
    · rename_i hkept hclosed
      cases hs
      intro id x hid hx hidle
      obtain rfl := hself id hid
      rw [hx, Option.map_some] at hkept hclosed
      by_contra hexpired
      refine hclosed (congrArg some ?_)
      rw [RetentionPolicy.verdict, hidle, if_neg Bool.false_ne_true,
        if_pos (Bool.not_eq_false _ ▸ hexpired)]

theorem vetted_inspect {t : Telling} (htell : (Command.borrow r).telling? = some t)
    (observers : List Observer) (hg : g.Ready True D O)
    (hrest : ∀ s, inspect g.state now t.announcement = (s, none) →
      Trail True (.borrow r) now g (g.withState s) → (g.withState s).Ready True D O →
      Vetted may m r (tell now t s observers)) :
    Vetted may m r (tell now t g.state (.inspector :: observers)) := by
  have hcaller := Command.caller?_of_telling? htell
  rw [tell]
  split
  · rename_i s c hinspect
    obtain ⟨rfl, -, e, he, hc⟩ := inspect_eq_some hinspect
    obtain ⟨-, hentry, howner, hslot, -⟩ := State.ownClosing?_eq_some hc
    cases htell
    exact vetted_paused ⟨hentry ▸ he, howner, hentry ▸ hslot⟩
  · rename_i s hinspect
    obtain ⟨htrail, hr⟩ := trail_inspect hg (fun _ => hcaller) hinspect
    exact hrest s hinspect htrail hr

theorem vetted_tell (ht : m.now ≤ now) {t : Telling} (htell : (Command.borrow r).telling? = some t)
    (observers : List Observer) (hg : g.Ready True D O)
    (hs : g.state.Unexpired m.now r.identity r.context) :
    Vetted may m r (tell now t g.state observers) := by
  induction observers generalizing g with
  | nil =>
    cases htell
    exact vetted_borrow hs
  | cons o observers ih =>
    cases o with
    | log =>
      have hw := (State.SameTables.note g.state (.managerCall t.announcement)).trans (.summarize _)
      exact ih (hg.written hw) (hs.written hw)
    | inspector =>
      exact vetted_inspect htell observers hg fun s _ htrail hr =>
        ih hr (htrail.unexpired (hg.sound trivial) ht hs)
    | poolInspector => exact ih hg hs
    | recorder o => exact vetted_paused hs

theorem vetted_start {observers : List Observer} (hg : g.Ready True D O)
    (ho : g.state.observers = .log :: .inspector :: observers) :
    Vetted may m r (start g.state m.now (.borrow r)) := by
  let t : Telling := ⟨⟨.borrow, r.identity, r.context⟩, .borrow r.channel⟩
  have hw := (State.SameTables.note g.state (.managerCall t.announcement)).trans (.summarize _)
  rw [start, ho]
  exact vetted_inspect (t := t) rfl observers (hg.written hw) fun s hinspect _ hr =>
    vetted_tell (Nat.le_refl _) rfl observers hr (unexpired_of_inspect (hg.written hw) hinspect)

theorem vetted_resumeOwnAgain {s : State} {e id : Nat} {h : Handle} {t : Nat}
    (he : s.registry.entryId? r.identity = some e) (hin : s.slotIn? e r.context = some id)
    (hh : s.handle? id = some h) (hidle : s.isLent id = false)
    (hs : s.Unexpired t r.identity r.context) (usable : Bool) :
    Vetted (s.Offers t r) m r (resumeOwnAgain s now r e id h usable) := by
  rw [resumeOwnAgain]
  split
  · rename_i hfits
    rw [Bool.and_eq_true, decide_eq_true_eq] at hfits
    obtain ⟨x, hx, hhandle⟩ := State.slot?_of_handle? hh
    have hborrowed : x.borrowed = false := by
      rw [State.isLent, hx] at hidle
      exact hidle
    have hslot : s.registry.slot? r.identity r.context = some id :=
      Option.bind_eq_some_iff.mpr ⟨e, he, hin⟩
    have hkept : ¬ s.policy.idleTimeout.nanos < (Duration.elapsed t x.releaseTime).nanos :=
      of_decide_eq_false (hs id x hslot hx hborrowed)
    exact vetted_lent ⟨r.context, id, x, hslot, hx, hhandle, hborrowed, hfits.2,
      fun _ => Nat.le_of_not_lt hkept⟩
  · exact vetted_paused he

/-- An idle slot of another context is taken over; how long it was idle is not looked at. -/
theorem vetted_resumeOther {s : State} {e id : Nat} {h : Handle} {owner : ContextId} {t : Nat}
    (he : s.registry.entryId? r.identity = some e) (hown : s.slotIn? e r.context = none)
    (howner : owner ≠ r.context) (hh : s.handle? id = some h) (hidle : s.isLent id = false)
    (others : List (ContextId × Nat)) (usable : Bool) :
    Vetted (s.Offers t r) m r (resumeOther s now r e owner id h others usable) := by
  rw [resumeOther]
  split
  · rename_i hfits
    rw [Bool.and_eq_true, decide_eq_true_eq] at hfits
    split
    · exact vetted_takeOver he r _
    · rename_i registry displaced hre
      obtain ⟨hin, rfl, rfl⟩ := Registry.reassign?_eq_some hre
      have hnone : (s.registry.detach e owner id).slotIn? e r.context = none := by
        rw [Registry.slotIn?_detach]
        split
        · rfl
        · exact hown
      obtain ⟨x, hx, hhandle⟩ := State.slot?_of_handle? hh
      rw [State.isLent, hx] at hidle
      rw [hnone]
      exact vetted_lent ⟨owner, id, x, Option.bind_eq_some_iff.mpr ⟨e, he, hin⟩, hx, hhandle, hidle,
        hfits.2, fun heq => absurd heq howner⟩
  · exact vetted_takeOver he r _

theorem vetted_resumeClosing {c : Closing} {after : AfterClosing} {failure : Option LeaseError}
    (ht : m.now ≤ now) (ha : after.Holds (.borrow r) g c) (hg : (g.finish c failure).Ready True D O)
    (hc : (Frame.closing c after).Vetted m r g.state) :
    Vetted (· ∉ m.built) m r (resumeClosing (g.state.finishClosing c failure) now c after) := by
  have hknown : ∀ i, (g.state.finishClosing c failure).registry.entryId? i =
      g.state.registry.entryId? i := fun i => by
    rw [State.registry_finishClosing]
    rfl
  cases after with
  | inspected observers t =>
    obtain ⟨he, howner, hin⟩ := hc
    -- nothing is left of the caller's own slot
    have hnone : (g.finish c failure).state.Unexpired m.now r.identity r.context := by
      intro id x hid
      obtain ⟨e, he', hin'⟩ := Option.bind_eq_some_iff.mp hid
      cases (he'.symm.trans (hknown _)).trans he
      have hgone := (State.slotIn?_finishClosing (s := g.state) c failure c.entry r.context).trans
        (if_pos ⟨rfl, howner, hin⟩)
      cases hgone.symm.trans hin'
    have hwritten := ((State.SameTables.count (g.state.finishClosing c failure) fun l =>
      { l with evictedClosed := l.evictedClosed + 1 }).trans
      (.note _ (.idleTimedOut t.announcement.identity t.announcement.context))).trans
      (.note _ (.inspected t.announcement.identity t.announcement.context .close))
    exact vetted_tell ht ha observers (hg.written hwritten) (hnone.written hwritten)
  | ownUseless r' e => exact vetted_takeOver ((hknown _).trans hc) r' _
  | displacedByTaken r' source taken => exact hc.elim
  | displacedByOpened r' opened => exact vetted_lent hc
  | requested =>
    obtain ⟨i, d, hk⟩ := ha
    cases hk
  | drained slots entries closed => cases ha.1
  | sweptIdle w slots rest => cases ha.1
  | sweptSurplus w slots rest => cases ha.1

/-- **The moves of a borrow.** -/
theorem vetted_resume (ht : m.now ≤ now) {f : Frame} {a : f.call.Answer}
    (hg : g.Awaits True (.borrow r) f D O) (hw : f.Walked g.state) (hf : f.Vetted m r g.state)
    (ha : ∀ p ∈ f.call.opened? a, p.2 ∉ m.built) :
    Vetted (fun h => h ∉ m.built ∨ g.state.Offers m.now r h) m r (resume g.state now f a) := by
  have hholds := hg.holds trivial
  cases f with
  | telling o observers t => exact vetted_tell ht hholds observers (hg.ready rfl rfl) hf
  | ticking o observers => cases hholds
  | checkingOwn r' e id h =>
    obtain ⟨hk, -⟩ := hholds
    cases hk
    show Vetted _ m r (resumeOwn g.state r e id h a)
    rw [resumeOwn]
    split
    · exact vetted_paused hf.1
    · split
      · exact vetted_refused _ _
      · exact vetted_paused hf
  | recheckingOwn r' e id h =>
    obtain ⟨hk, -, hin, hh⟩ := hholds
    cases hk
    exact (vetted_resumeOwnAgain hf.1 hin hh hw hf.2 a).imp fun _ => .inr
  | checkingOther r' e owner id h others =>
    obtain ⟨hk, -, howner, hh, hidle, -⟩ := hholds
    cases hk
    exact (vetted_resumeOther hf hw howner hh hidle others a).imp fun _ => .inr
  | opening r' e produces timeout =>
    show Vetted _ m r (resumeOpening g.state now r' e a)
    rw [resumeOpening]
    split
    · exact vetted_refused _ _
    · rename_i hopened
      have hnew : a.handle ∉ m.built := ha (r'.identity, a.handle) (by simp [Call.opened?, hopened])
      dsimp only
      split
      · exact vetted_paused hnew
      · exact vetted_lent (.inl hnew)
  | closing c after =>
    have hs := (hg.sound trivial).placed
    have hchange : Change True (.borrow r) now g (g.finish c a) := .finish g c a hg.closing
    have hfinish : (g.finish c a).Ready True D O :=
      ⟨⟨hg.claim, rfl, hg.opened, hg.disconnected, fun h => hchange.sound h (hg.sound h)⟩,
        hg.settled⟩
    exact (vetted_resumeClosing ht hholds hfinish hf).imp fun _ => .inl

end moves

/-! ### Runs -/

/-- A borrow that began in `m` waits at a frame. Others may have moved, observers may have been
attached, and time may have passed since. -/
inductive Borrows (r : Request) (m : System) : System → Frame → Prop
  | begun {f : Frame} (hyields : ∀ o ∈ m.ongoing, o.frame.call.yields)
      (hf : (start m.state m.now (.borrow r)).2 = .paused f) :
      Borrows r m (m.started (.borrow r)) f
  | waited {m' m'' : System} {k : Option Command} {f : Frame} (h : Borrows r m m' f)
      (hmove : Moves .calm m' k m'') (hstill : ⟨.borrow r, f⟩ ∈ m''.ongoing) : Borrows r m m'' f
  | wentOn {m' : System} {f f' : Frame} (before later : List Ongoing) (a : f.call.Answer)
      (h : Borrows r m m' f) (hongoing : m'.ongoing = before ++ ⟨.borrow r, f⟩ :: later)
      (hyields : ∀ p ∈ before ++ later, p.frame.call.yields) (ha : m'.Admits f.call a)
      (hf' : (resume m'.state m'.now f a).2 = .paused f') :
      Borrows r m (m'.resumed ⟨.borrow r, f⟩ a (before ++ later)) f'

section runs
variable {m m' m'' : System} {k : Option Command} {r : Request} {f : Frame}
  {before later : List Ongoing}

theorem Moves.now_le (h : Moves .calm m k m') : m.now ≤ m'.now := by
  cases h with
  | pass t ht => exact ht
  | _ => exact Nat.le_refl _

theorem Moves.events_prefix (h : Moves .calm m k m') : m.events <+: m'.events := by
  cases h with
  | start k hk => exact (List.prefix_append _ _).trans (List.prefix_append _ _)
  | resume before o later a hm ho ha =>
    exact (List.prefix_append _ _).trans (List.prefix_append _ _)
  | fail | attach | pass => exact List.prefix_refl _

/-- What holds in `m'` while a borrow that began in `m` waits there. -/
structure Borrows.Sound (r : Request) (m m' : System) (f : Frame) : Prop where
  reachable : Reachable .calm m'
  now : m.now ≤ m'.now
  events : m.events <+: m'.events
  ongoing : ⟨.borrow r, f⟩ ∈ m'.ongoing
  vetted : f.Vetted m r m'.state

theorem Borrows.Sound.resume (h : Borrows.Sound r m m' f)
    (hongoing : m'.ongoing = before ++ ⟨.borrow r, f⟩ :: later)
    (hyields : ∀ p ∈ before ++ later, p.frame.call.yields) {a : f.call.Answer}
    (ha : m'.Admits f.call a) :
    Vetted (fun h => h ∉ m.built ∨ m'.state.Offers m.now r h) m r
      (Affine.resume m'.state m'.now f a) := by
  obtain ⟨g, hg⟩ := h.reachable.calm_good
  have hawaits := hg.awaits hongoing fun _ => hyields
  have hwalked := h.reachable.walked ⟨.borrow r, f⟩ h.ongoing
  have hvetted := h.vetted
  rw [← hg.state] at hwalked hvetted ⊢
  refine vetted_resume (g := { g with claim := f.claim?, closing := f.closing? }) h.now hawaits
    hwalked hvetted fun p hp hbuilt => ?_
  exact System.not_mem_built ha hp ((h.events.filterMap _).subset hbuilt)

theorem Frame.Vetted.stays (hm' : Reachable .calm m') (hf : f.Vetted m r m'.state)
    (hyields : f.call.yields) (hnow : m.now ≤ m'.now) (hmove : Moves .calm m' k m'') :
    f.Vetted m r m''.state := by
  cases f with
  | telling o observers t => exact hmove.unexpired hm' hnow hf
  | ticking | opening => exact trivial
  | checkingOwn | recheckingOwn | checkingOther | closing => cases hyields

theorem Frame.Vetted.attached {s : State} (hf : f.Vetted m r s) (observers : List Observer) :
    f.Vetted m r { s with observers } := by
  cases f with
  | closing c after => cases after <;> exact hf
  | _ => exact hf

/-- **What a borrow relies on where it waits**, whatever happens meanwhile. -/
theorem Borrows.sound (hm : Reachable .calm m) (h : Borrows r m m' f) :
    Borrows.Sound r m m' f := by
  induction h with
  | begun hyields hf =>
    have hmove : Moves .calm m (some (.borrow r)) (m.started (.borrow r)) := .start m _ hyields
    obtain ⟨g, hg⟩ := hm.calm_good
    obtain ⟨observers, ho⟩ := hm.observers
    refine ⟨hm.next hmove, Nat.le_refl _, hmove.events_prefix, ?_, ?_⟩
    · simp [System.started, System.moved, left, hf]
    · have hstart : Vetted (fun _ => True) m r (start g.state m.now (.borrow r)) :=
        vetted_start (g := { g with claim := none, closing := none })
          (hg.ready fun _ => hyields) (by rw [← hg.state] at ho; exact ho.symm)
      show Frame.Vetted m r (start m.state m.now (.borrow r)).1 _
      rw [← hg.state] at hf ⊢
      exact hstart.waits _ hf
  | @waited m' m'' k f h hmove hstill ih =>
    refine ⟨ih.reachable.next hmove, ih.now.trans hmove.now_le,
      ih.events.trans hmove.events_prefix, hstill, ?_⟩
    by_cases hyields : f.call.yields
    · exact ih.vetted.stays ih.reachable hyields ih.now hmove
    · -- while a check or a disconnect is answered only the borrow itself can move
      have apart : ∀ {l : List Ongoing}, (∀ p ∈ l, p.frame.call.yields) → ⟨.borrow r, f⟩ ∉ l :=
        fun hl hin => hyields (hl _ hin)
      cases hmove with
      | start k hk => exact absurd ih.ongoing (apart hk)
      | resume before o later a hongoing ho ha =>
        have hself : o = ⟨.borrow r, f⟩ := by
          have hmem := ih.ongoing
          rw [hongoing, List.mem_append, List.mem_cons] at hmem
          rcases hmem with hin | heq | hin
          · exact absurd (List.mem_append_left _ hin) (apart ho)
          · exact heq.symm
          · exact absurd (List.mem_append_right _ hin) (apart ho)
        subst hself
        obtain ⟨-, hpaused⟩ := (System.mem_moved hstill).resolve_right (apart ho)
        exact (ih.resume hongoing ho ha).waits _ hpaused
      | fail before o later hongoing ho htells => exact absurd hstill (apart ho)
      | attach o => exact ih.vetted.attached _
      | pass t ht => exact ih.vetted
  | @wentOn m' f f' before later a _ hongoing hyields ha hf' ih =>
    have hmove : Moves .calm m' (some (.borrow r))
        (m'.resumed ⟨.borrow r, f⟩ a (before ++ later)) := .resume m' before _ later a hongoing
      hyields ha
    refine ⟨ih.reachable.next hmove, ih.now, ih.events.trans hmove.events_prefix, ?_,
      (ih.resume hongoing hyields ha).waits _ hf'⟩
    simp [System.resumed, System.moved, left, hf']

/-- A borrow that began in `m` gets its last answer in `m'` and hands out the handle. -/
inductive HandsOut (r : Request) (m m' : System) (h : Handle) : Prop
  | mk {f : Frame} (before later : List Ongoing) (a : f.call.Answer) (hb : Borrows r m m' f)
    (hongoing : m'.ongoing = before ++ ⟨.borrow r, f⟩ :: later)
    (hyields : ∀ p ∈ before ++ later, p.frame.call.yields) (ha : m'.Admits f.call a)
    (hlent : (resume m'.state m'.now f a).2 = .done (.lent h))

theorem inspect_of_expired {s : State} {a : Announcement} {now id : Nat} {x : Slot} {h : Handle}
    (hid : s.registry.slot? a.identity a.context = some id) (hx : s.slot? id = some x)
    (howner : x.owner = a.context) (hh : x.handle = some h) (hidle : x.borrowed = false)
    (hexpired : s.policy.idleExpired x.releaseTime now = true) :
    ∃ e, inspect s now a = (s, some ⟨a.identity, e, id, a.context, h⟩) := by
  obtain ⟨e, he, hin⟩ := Option.bind_eq_some_iff.mp hid
  refine ⟨e, ?_⟩
  have hopen : s.openHandle? a.context id = some h :=
    Option.bind_eq_some_iff.mpr ⟨x, hx, Slot.openFor_eq_some.mpr ⟨howner, hh⟩⟩
  have hown : s.ownClosing? a.identity e a.context = some ⟨a.identity, e, id, a.context, h⟩ := by
    rw [State.ownClosing?, hin, Option.bind_some, hopen]
    rfl
  rw [inspect, he, Option.bind_some, hown]
  dsimp only
  rw [hx, Option.map_some, RetentionPolicy.verdict, hidle, if_neg Bool.false_ne_true,
    if_pos hexpired]

/-- **A borrow does not hand out its own slot after that was idle for too long.** Whatever happens
while it waits, a connection that a borrow hands out and that was there before it began comes from
an idle slot of the identity and has the channel asked for. If this is the caller's own slot, it had
been idle for no longer than its timeout when the borrow began; otherwise the first thing that the
borrow does is to disconnect it. How long the slot of another context was idle is not looked at. -/
theorem own_slot_vetted (hm : Reachable .calm m) (r : Request) :
    (∀ m' h, HandsOut r m m' h → h ∈ m.built → m'.state.Offers m.now r h) ∧
    ((∀ o ∈ m.ongoing, o.frame.call.yields) → ∀ id x h,
      m.state.registry.slot? r.identity r.context = some id → m.state.slot? id = some x →
      x.handle = some h → x.borrowed = false →
      m.state.policy.idleTimeout.nanos < (Duration.elapsed m.now x.releaseTime).nanos →
      (m.started (.borrow r)).events = m.events ++ [.called (.borrow r) (.disconnect h)]) := by
  refine ⟨?_, ?_⟩
  · rintro m' h ⟨before, later, a, hb, hongoing, hyields, ha, hlent⟩ hbuilt
    have hvetted := (hb.sound hm).resume hongoing hyields ha
    exact (hvetted.lends h hlent).resolve_left (not_not.mpr hbuilt)
  · intro hyields id x h hid hx hh hidle hlong
    obtain ⟨g, hg⟩ := hm.calm_good
    obtain ⟨observers, ho⟩ := hm.observers
    have howner : x.owner = r.context := by
      obtain ⟨e, -, hin⟩ := Option.bind_eq_some_iff.mp hid
      rw [← hg.state] at hx
      have hplaced := (hg.sound trivial).placed.owner e r.context id (hg.state ▸ hin)
      rw [State.owner?, hx] at hplaced
      exact Option.some.inj hplaced
    -- what is written down before the inspection does not matter for it
    let a : Announcement := ⟨.borrow, r.identity, r.context⟩
    obtain ⟨journal, hsummary⟩ := (m.state.note (.managerCall a)).exists_journal_summarize
    obtain ⟨e, hinspect⟩ := inspect_of_expired (s := { m.state with journal }) (a := a) hid hx
      howner hh hidle (decide_eq_true hlong)
    have hstart : (start m.state m.now (.borrow r)).2 = .paused (.closing
        ⟨r.identity, e, id, r.context, h⟩ (.inspected observers ⟨a, .borrow r.channel⟩)) := by
      have hsame : (m.state.note (.managerCall a)).summarize = { m.state with journal } := hsummary
      rw [start, ← ho, List.cons_append, List.cons_append, List.nil_append, tell, hsame, tell,
        hinspect]
      rfl
    show m.events ++ [] ++ [shown (.borrow r) (start m.state m.now (.borrow r)).2] = _
    rw [hstart, List.append_nil]
    rfl

end runs

/-! ### Idle slots -/

/-- The context that gave its connection back asks for it again. -/
theorem own_slot_vetted_reused : ∃ m', HandsOut (sharedRequest 1) handedBack m' ⟨1, .sftp⟩ ∧
    m'.state.Offers 0 (sharedRequest 1) ⟨1, .sftp⟩ := by
  have hyields : ∀ p ∈ handedBack.ongoing, p.frame.call.yields := fun p hp =>
    absurd (List.length_pos_of_mem hp) (by decide)
  have hasks := Borrows.begun (r := sharedRequest 1) (f := .checkingOwn (sharedRequest 1) 0 0
    ⟨1, .sftp⟩) hyields rfl
  have hagain : Borrows (sharedRequest 1) handedBack _
      (.recheckingOwn (sharedRequest 1) 0 0 ⟨1, .sftp⟩) :=
    .wentOn [] [] true hasks rfl (by simp) trivial rfl
  have hlends : HandsOut (sharedRequest 1) handedBack _ ⟨1, .sftp⟩ :=
    .mk [] [] true hagain rfl (by simp) trivial rfl
  refine ⟨_, hlends, ?_⟩
  exact (own_slot_vetted reachable_handedBack (sharedRequest 1)).1 _ _ hlends (by decide)

/-- The slot that was given back has been idle for longer than its timeout. -/
def leftIdle : System := { handedBack with now := 300000000001 }

/-- Its connection is handed out to another context all the same. -/
theorem expired_slot_taken_over : Reachable .calm leftIdle ∧
    leftIdle.state.registry.slot? (sharedRequest 2).identity ⟨1⟩ = some 0 ∧
    (∃ x, leftIdle.state.slot? 0 = some x ∧ x.handle = some ⟨1, .sftp⟩ ∧ x.borrowed = false ∧
      leftIdle.state.policy.idleTimeout.nanos <
        (Duration.elapsed leftIdle.now x.releaseTime).nanos) ∧
    ∃ m', HandsOut (sharedRequest 2) leftIdle m' ⟨1, .sftp⟩ := by
  refine ⟨reachable_handedBack.next (.pass _ _ (by decide)), by decide,
    ⟨⟨⟨1⟩, some ⟨1, .sftp⟩, false, 0, 0⟩, by decide, rfl, rfl, by decide⟩, ?_⟩
  have hyields : ∀ p ∈ leftIdle.ongoing, p.frame.call.yields := fun p hp =>
    absurd (List.length_pos_of_mem hp) (by decide)
  have hasks := Borrows.begun (r := sharedRequest 2) (f := .checkingOther (sharedRequest 2) 0 ⟨1⟩ 0
    ⟨1, .sftp⟩ []) hyields rfl
  exact ⟨_, .mk [] [] true hasks rfl (by simp) trivial rfl⟩

end ConnectionLeasing.Affine

import ConnectionLeasing.Proofs.Affine.Leak
import ConnectionLeasing.Proofs.Affine.Observing
import ConnectionLeasing.Proofs.Affine.Refusing

/-!
# Giving a connection back and closing it

A context gives back or closes what an inspection has left of its slot, however late it comes: the
slot may have been taken over, forced back or closed since it was borrowed. The other slots are left
alone.

* `State.Alters`: nothing but the slot of one context has changed.
* `concludes_told`: what a call comes to when the observers are the built-in ones.
* `giving_back_touches_own_slot`: the two operations, and closing again.
-/

namespace ConnectionLeasing

namespace Holding

variable {h h' : Holding} {c : ContextId} {p : RetentionPolicy} {now : Nat} {x : OpenSlot}

/-! ### What an inspection leaves -/

theorem slot?_inspected (hx : (h.inspected p now c).slot? c = some x) :
    (∃ y, h.slot? c = some y ∧ y.handle = x.handle) ∧
      p.verdict x.borrowed x.borrowTime x.releaseTime now = .keep := by
  cases hy : h.slot? c with
  | none =>
    rw [inspected_of_none hy, hy] at hx
    cases hx
  | some y =>
    have hinspected := inspected_of_some p now hy
    cases hv : p.verdict y.borrowed y.borrowTime y.releaseTime now with
    | keep =>
      rw [hv] at hinspected
      rw [hinspected, hy] at hx
      obtain rfl := Option.some.inj hx
      exact ⟨⟨y, rfl, rfl⟩, hv⟩
    | release =>
      rw [hv] at hinspected
      rw [hinspected, slot?, write, Keyed.get?_put_self] at hx
      obtain rfl := Option.some.inj hx
      refine ⟨⟨y, rfl, rfl⟩, ?_⟩
      simp [OpenSlot.markIdle, RetentionPolicy.verdict, RetentionPolicy.idleExpired,
        Duration.elapsed]
    | close =>
      rw [hv] at hinspected
      rw [hinspected, slot?, remove, Keyed.get?_erase_self] at hx
      cases hx

end Holding

namespace Affine

variable {T : Nat → Prop} {s s' : State} {now : Nat} {i : Identity} {c : ContextId}

/-! ### What is heard of an inspection -/

section heard
variable {p : RetentionPolicy} {h : Holding} {seen : List Exchange} {through : Nat}

theorem Inspects.moment (hi : Inspects p now c h seen through) :
    ((h.inspected p now c).slot? c).map (·.markIdle through) =
      ((h.inspected p now c).slot? c).map (·.markIdle now) := by
  cases hleft : (h.inspected p now c).slot? c with
  | none => rfl
  | some x =>
    obtain ⟨-, hthrough⟩ := hi.stays (by rw [hleft]; rfl)
    rw [hthrough]

theorem Inspects.calls (hi : Inspects p now c h seen through) : seen.map (·.call) =
    if ((h.inspected p now c).slot? c).isSome then []
    else (h.slot? c).toList.map fun x => .disconnect x.handle := by
  cases hleft : (h.inspected p now c).slot? c with
  | none => exact hi.goes hleft
  | some x =>
    obtain ⟨hseen, -⟩ := hi.stays (by rw [hleft]; rfl)
    rw [hseen]
    rfl

theorem Inspects.calls_append (hi : Inspects p now c h seen through) :
    seen.map (·.call) ++
        ((h.inspected p now c).slot? c).toList.map (fun x => .disconnect x.handle) =
      (h.slot? c).toList.map fun x => .disconnect x.handle := by
  rw [hi.calls]
  cases hleft : (h.inspected p now c).slot? c with
  | none => exact List.append_nil _
  | some x =>
    obtain ⟨⟨y, hy, hhandle⟩, -⟩ := Holding.slot?_inspected hleft
    rw [hy]
    exact congrArg (fun g => [Call.disconnect g]) hhandle.symm

end heard

/-! ### One slot -/

/-- The slot of context `c` for identity `i` has become `y`, and nothing else has changed. -/
structure State.Alters (s : State) (i : Identity) (c : ContextId) (y : Option OpenSlot)
    (s' : State) : Prop where
  own : (s'.holding i).slot? c = y
  contexts : ∀ d, d ≠ c → (s'.holding i).slot? d = (s.holding i).slot? d
  identities : ∀ j, j ≠ i → s'.holding j = s.holding j
  known : (s'.holding i).known = (s.holding i).known
  pending : ∀ e, s'.registry.pendingIn e = s.registry.pendingIn e
  settings : s'.settings = s.settings
  upright : s'.Upright

theorem State.Alters.trans {s'' : State} {y z : Option OpenSlot} (h : s.Alters i c y s')
    (h' : s'.Alters i c z s'') : s.Alters i c z s'' where
  own := h'.own
  contexts d hd := (h'.contexts d hd).trans (h.contexts d hd)
  identities j hj := (h'.identities j hj).trans (h.identities j hj)
  known := h'.known.trans h.known
  pending e := (h'.pending e).trans (h.pending e)
  settings := h'.settings.trans h.settings
  upright := h'.upright

theorem State.Leaves.alters {h : Holding} {y : Option OpenSlot} (hl : s.Leaves i h s')
    (heases : Holding.Eases c (s.holding i) h) (hy : h.slot? c = y) : s.Alters i c y s' where
  own := by rw [hl.holding, hy]
  contexts d hd := by
    rw [hl.holding]
    exact heases.others d hd
  identities := hl.others
  known := by rw [hl.holding, heases.known]
  pending := hl.pending
  settings := hl.settings
  upright := hl.upright

/-! ### The built-in observers -/

theorem inspect_of_keep (hs : s.Upright) (a : Announcement)
    (hkeep : ∀ x, (s.holding a.identity).slot? a.context = some x →
      s.policy.verdict x.borrowed x.borrowTime x.releaseTime now = .keep) :
    inspect s now a = (s, none) := by
  rw [inspect]
  rcases hs.ownSlot a.identity a.context with ⟨-, -, hown⟩ | ⟨e, id, x, -, hslot, -, -, hx, hown⟩
  · rw [hown]
  · rw [hown]
    dsimp only
    rw [State.verdict_of_openSlot? hx, hkeep x hslot]

theorem tell_builtin {observers : List Observer} (hbuiltin : ∀ p, .recorder p ∉ observers)
    (t : Telling) (hs : s.Upright)
    (hkeep : ∀ x, (s.holding t.announcement.identity).slot? t.announcement.context = some x →
      s.policy.verdict x.borrowed x.borrowTime x.releaseTime now = .keep) :
    ∃ journal, tell now t s observers = perform { s with journal } now t := by
  induction observers generalizing s with
  | nil => exact ⟨s.journal, rfl⟩
  | cons o observers ih =>
    have hrest : ∀ p, .recorder p ∉ observers := fun p hp =>
      hbuiltin p (List.mem_cons_of_mem o hp)
    cases o with
    | log =>
      obtain ⟨journal, hsummary⟩ := (s.note (.managerCall t.announcement)).exists_journal_summarize
      have hl := (State.Leaves.refl hs t.announcement.identity).written journal
      rw [tell, hsummary]
      refine ih hrest (s := { s with journal }) hl.upright fun x hx => hkeep x ?_
      rw [← hl.holding]
      exact hx
    | inspector =>
      rw [tell, inspect_of_keep hs t.announcement hkeep]
      exact ih hrest hs hkeep
    | poolInspector => exact ih hrest hs hkeep
    | recorder p => exact absurd List.mem_cons_self (hbuiltin p)

/-- A call that is announced to the built-in observers is carried out on what the inspection has
left of the caller's slot. -/
theorem concludes_told (hs : s.Upright) (hbuiltin : ∀ p, .recorder p ∉ s.observers)
    (hinspector : [.log, .inspector] <+: s.observers) (t : Telling)
    {Q : List Exchange → State → Result → Prop}
    (hperform : ∀ s₁ t₁ seen, s.Leaves t.announcement.identity
      ((s.holding t.announcement.identity).inspected s.policy now t.announcement.context) s₁ →
      Inspects s.policy now t.announcement.context (s.holding t.announcement.identity) seen t₁ →
      (perform s₁ t₁ t).Concludes (now ≤ ·) fun more => Q (seen ++ more)) :
    (tell now t s s.observers).Concludes (now ≤ ·) Q := by
  obtain ⟨observers, hobservers⟩ := hinspector
  have hrest : ∀ p, .recorder p ∉ observers := fun p hp =>
    hbuiltin p (hobservers ▸ List.mem_append_right _ hp)
  obtain ⟨journal, hsummary⟩ := (s.note (.managerCall t.announcement)).exists_journal_summarize
  have hl := (State.Leaves.refl hs t.announcement.identity).written journal
  rw [← hobservers]
  show (tell now t s (.log :: .inspector :: observers)).Concludes (now ≤ ·) Q
  rw [tell, hsummary]
  refine concludes_inspecting hl.upright (Nat.le_refl _) t observers
    fun s₁ t₁ seen ht₁ hl₁ hinspects => ?_
  have hlast := hl.trans hl₁
  rw [hl.holding, State.policy, hl.settings] at hlast hinspects
  -- what is left of the slot stays at the same moment, and without one nothing is inspected
  have hkeep : ∀ x, (s₁.holding t.announcement.identity).slot? t.announcement.context = some x →
      s₁.policy.verdict x.borrowed x.borrowTime x.releaseTime t₁ = .keep := by
    intro x hx
    rw [hlast.holding] at hx
    obtain ⟨-, ht⟩ := hinspects.stays (by rw [hx]; rfl)
    rw [State.policy, hlast.settings, ht]
    exact (Holding.slot?_inspected hx).2
  obtain ⟨journal', htell⟩ := tell_builtin hrest t hl₁.upright hkeep
  rw [htell]
  exact hperform _ t₁ seen (hlast.written journal') hinspects

/-! ### The two operations -/

theorem release_alters (hs : s.Upright) (now : Nat) (i : Identity) (c : ContextId) :
    ∃ s', release s now i c = (s', .done (.released ((s.holding i).slot? c).isSome)) ∧
      s.Alters i c (((s.holding i).slot? c).map (·.markIdle now)) s' := by
  rw [release]
  rcases hs.ownSlot i c with ⟨hslot, hid, -⟩ | ⟨e, id, x, he, hslot, hid, hmem, hx, -⟩
  · rw [hid, hslot]
    exact ⟨_, rfl, ((State.Leaves.refl hs i).written _).alters (.refl c _) hslot⟩
  · rw [hid, Option.bind_some, State.openHandle?_of_openSlot? hx, hslot]
    have hl := State.Leaves.of_turns (hs.marksIdle he hmem hx now) (fun _ => rfl) rfl
    refine ⟨_, rfl, (hl.booked (l := { released := 1 }) rfl _).alters
      (Holding.eases_markIdle hslot now) ?_⟩
    exact Keyed.get?_put_self _ _ _

theorem concludes_closeOwn (hs : s.Upright) (i : Identity) (c : ContextId) :
    (closeOwn s i c).Concludes T fun seen s' result =>
      result = .closed ((s.holding i).slot? c).isSome ∧
      seen.map (·.call) = ((s.holding i).slot? c).toList.map (fun x => .disconnect x.handle) ∧
      s.Alters i c none s' := by
  rw [closeOwn]
  rcases hs.ownSlot i c with ⟨hslot, -, hown⟩ | ⟨e, id, x, he, hslot, -, hmem, -, hown⟩
  · rw [hown, hslot]
    exact .done ⟨rfl, rfl, ((State.Leaves.refl hs i).written _).alters (.refl c _) hslot⟩
  · rw [hown, hslot]
    refine .paused fun t _ failure => .done ⟨rfl, rfl, ?_⟩
    have hl := State.Leaves.closes hs (x := ⟨i, e, id, c, x.handle⟩) he hmem failure
    exact (hl.booked (l := { closed := 1 }) rfl _).alters (Holding.eases_remove hslot)
      (Keyed.get?_erase_self _ _)

theorem close_of_none (hs : s.Upright) (hbuiltin : ∀ p, .recorder p ∉ s.observers)
    (hnone : (s.holding i).slot? c = none) (now : Nat) :
    ∃ journal, start s now (.close i c) = ({ s with journal }, .done (.closed false)) := by
  have hkeep : ∀ x, (s.holding i).slot? c = some x →
      s.policy.verdict x.borrowed x.borrowTime x.releaseTime now = .keep := by
    intro x hx
    rw [hnone] at hx
    cases hx
  obtain ⟨journal, htell⟩ := tell_builtin hbuiltin ⟨⟨.close, i, c⟩, .close⟩ hs hkeep
  have hown : ((s.registry.entryId? i).bind fun e => s.ownClosing? i e c) = none := by
    rcases hs.ownSlot i c with ⟨-, -, hown⟩ | ⟨_, _, x, -, hslot, -⟩
    · exact hown
    · rw [hnone] at hslot
      cases hslot
  have hclose : closeOwn { s with journal } i c =
      ({ s with journal }.note (.nothingToClose i c), .done (.closed false)) := by
    rw [closeOwn]
    have hsame : ((({ s with journal } : State).registry.entryId? i).bind fun e =>
        ({ s with journal } : State).ownClosing? i e c) = none := hown
    rw [hsame]
  exact ⟨_, htell.trans hclose⟩

theorem Step.Concludes.observers {Q : List Exchange → State → Result → Prop} {step : Step}
    {l : List Observer} (h : step.Concludes T Q) (hl : step.1.observers = l) :
    step.Concludes T fun seen s r => Q seen s r ∧ s.observers = l := by
  induction h with
  | done h => exact .done ⟨h, hl⟩
  | paused _ ih => exact .paused fun t ht a => ih t ht a (observers_resume hl t _ a)

/-! ### Handles of one slot -/

theorem State.Upright.registered (hs : s.Upright) {x : OpenSlot}
    (hx : (s.holding i).slot? c = some x) : ∃ e id, (i, e) ∈ s.registry.known ∧
      s.registry.slot? i c = some id ∧ (c, id) ∈ s.slotsOf e ∧ s.handle? id = some x.handle := by
  rcases hs.ownSlot i c with ⟨hslot, -⟩ | ⟨e, id, y, he, hslot, hid, hmem, hy, -⟩
  · rw [hslot] at hx
    cases hx
  · rw [hslot] at hx
    obtain rfl := Option.some.inj hx
    have hhandle := (State.openHandle?_eq_some (State.openHandle?_of_openSlot? hy)).2
    exact ⟨e, id, (hs.mem_known (i, e)).mpr he, hid, hmem, hhandle⟩

theorem State.Upright.slot_of_handle (hs : s.Upright) {x y : OpenSlot} {j : Identity}
    {d : ContextId} (hx : (s.holding i).slot? c = some x) (hy : (s.holding j).slot? d = some y)
    (h : y.handle = x.handle) : j = i ∧ d = c := by
  obtain ⟨e, id, he, -, hid, hhandle⟩ := hs.registered hx
  obtain ⟨e', id', he', -, hid', hhandle'⟩ := hs.registered hy
  have heq : s.handle? id' = s.handle? id := by rw [hhandle', hhandle, h]
  obtain ⟨hk, hp⟩ := hs.handles _ he' _ he _ hid' _ hid heq
  exact ⟨congrArg Prod.fst hk, congrArg Prod.fst hp⟩

theorem Reachable.undisconnected {m : System} (hm : Reachable .calm m)
    (hyields : ∀ p ∈ m.ongoing, p.frame.call.yields) {x : OpenSlot}
    (hx : (m.state.holding i).slot? c = some x) : x.handle ∉ m.disconnected := by
  obtain ⟨e, id, -, hr, -, hhandle⟩ := (hm.upright hyields).registered hx
  obtain ⟨g, hg⟩ := hm.calm_good
  rw [← hg.state] at hr hhandle
  rw [← hg.disconnected]
  obtain ⟨-, h, hh, -, hasked⟩ := (hg.sound trivial).open_of_slot?
    ((hg.closing trivial).trans (System.closing_of_yields hyields)) hr
  rw [hhandle] at hh
  obtain rfl := Option.some.inj hh
  exact hasked

/-! ### The whole operations -/

section whole
variable (hs : s.Upright) (hbuiltin : ∀ p, .recorder p ∉ s.observers)
  (hinspector : [.log, .inspector] <+: s.observers)
include hs hbuiltin hinspector

theorem concludes_release (now : Nat) (i : Identity) (c : ContextId) :
    (start s now (.release i c)).Concludes (now ≤ ·) fun seen s' result =>
      result = .released (((s.holding i).inspected s.policy now c).slot? c).isSome ∧
      s.Alters i c ((((s.holding i).inspected s.policy now c).slot? c).map (·.markIdle now)) s' ∧
      seen.map (·.call) =
        if (((s.holding i).inspected s.policy now c).slot? c).isSome then []
        else ((s.holding i).slot? c).toList.map fun x => .disconnect x.handle := by
  refine concludes_told hs hbuiltin hinspector ⟨⟨.release, i, c⟩, .release⟩
    fun s₁ t₁ seen (hl : s.Leaves i ((s.holding i).inspected s.policy now c) s₁)
      (hinspects : Inspects s.policy now c (s.holding i) seen t₁) => ?_
  obtain ⟨s', hrelease, halters⟩ := release_alters hl.upright t₁ i c
  rw [hl.holding] at hrelease halters
  rw [hinspects.moment] at halters
  have hinspected := hl.alters (Holding.eases_inspected s.policy now c (s.holding i)) rfl
  show (release s₁ t₁ i c).Concludes _ _
  rw [hrelease]
  refine .done ⟨rfl, hinspected.trans halters, ?_⟩
  rw [List.append_nil]
  exact hinspects.calls

theorem concludes_close (now : Nat) (i : Identity) (c : ContextId) :
    (start s now (.close i c)).Concludes (now ≤ ·) fun seen s' result =>
      result = .closed (((s.holding i).inspected s.policy now c).slot? c).isSome ∧
      s.Alters i c none s' ∧
      seen.map (·.call) = ((s.holding i).slot? c).toList.map (fun x => .disconnect x.handle) ∧
      ∀ later, ∃ journal,
        start s' later (.close i c) = ({ s' with journal }, .done (.closed false)) := by
  have hconcludes : (start s now (.close i c)).Concludes (now ≤ ·) fun seen s' result =>
      result = .closed (((s.holding i).inspected s.policy now c).slot? c).isSome ∧
      s.Alters i c none s' ∧
      seen.map (·.call) = ((s.holding i).slot? c).toList.map (fun x => .disconnect x.handle) := by
    refine concludes_told hs hbuiltin hinspector ⟨⟨.close, i, c⟩, .close⟩
      fun s₁ t₁ seen (hl : s.Leaves i ((s.holding i).inspected s.policy now c) s₁)
        (hinspects : Inspects s.policy now c (s.holding i) seen t₁) => ?_
    refine (concludes_closeOwn hl.upright i c).imp fun more s' result hclose => ?_
    rw [hl.holding] at hclose
    obtain ⟨hresult, hcalls, halters⟩ := hclose
    have hinspected := hl.alters (Holding.eases_inspected s.policy now c (s.holding i)) rfl
    refine ⟨hresult, hinspected.trans halters, ?_⟩
    rw [List.map_append, hcalls]
    exact hinspects.calls_append
  refine (hconcludes.observers (observers_start rfl now _)).imp fun seen s' result hend => ?_
  obtain ⟨⟨hresult, halters, hcalls⟩, hsame⟩ := hend
  exact ⟨hresult, halters, hcalls, close_of_none halters.upright (hsame ▸ hbuiltin) halters.own⟩

end whole

/-- **Giving back and closing touch the slot of their context only.** In every manager of a run that
is not disconnecting anything, with the built-in observers, whatever disconnects are answered and
however long that takes. What the inspection has left of the slot is given back with its handle, or
disconnected; a slot that the inspection has closed is not disconnected again. No handle that is
disconnected was disconnected before, or belongs to another slot. After a close there is no slot,
and another close does nothing. -/
theorem giving_back_touches_own_slot {m : System} (hm : Reachable .calm m)
    (hyields : ∀ p ∈ m.ongoing, p.frame.call.yields)
    (hbuiltin : ∀ p, .recorder p ∉ m.state.observers) (i : Identity) (c : ContextId) :
    let s := m.state
    let own := (s.holding i).slot? c
    let left := ((s.holding i).inspected s.policy m.now c).slot? c
    (∀ x, own = some x → x.handle ∉ m.disconnected ∧
      ∀ j d y, (s.holding j).slot? d = some y → y.handle = x.handle → j = i ∧ d = c) ∧
    (∀ x, left = some x → ∃ y, own = some y ∧ y.handle = x.handle) ∧
    (start s m.now (.release i c)).Concludes (m.now ≤ ·) (fun seen s' result =>
      result = .released left.isSome ∧ s.Alters i c (left.map (·.markIdle m.now)) s' ∧
      seen.map (·.call) =
        if left.isSome then [] else own.toList.map fun x => .disconnect x.handle) ∧
    (start s m.now (.close i c)).Concludes (m.now ≤ ·) (fun seen s' result =>
      result = .closed left.isSome ∧ s.Alters i c none s' ∧
      seen.map (·.call) = own.toList.map (fun x => .disconnect x.handle) ∧
      ∀ later, ∃ journal,
        start s' later (.close i c) = ({ s' with journal }, .done (.closed false))) := by
  intro s own left
  have hs : s.Upright := hm.upright hyields
  refine ⟨fun x hx => ⟨hm.undisconnected hyields hx, fun j d y hy h => hs.slot_of_handle hx hy h⟩,
    fun x hx => (Holding.slot?_inspected hx).1, ?_, ?_⟩
  · exact concludes_release hs hbuiltin hm.observers m.now i c
  · exact concludes_close hs hbuiltin hm.observers m.now i c

/-- A connection that was given back, a nanosecond after its idle time has run out. -/
def overdue : System := { handedBack with now := 300000000001 }

/-- The context closes its connection too late: the inspection disconnects it, and the close finds
nothing. -/
theorem giving_back_touches_own_slot_overdue : ∃ (i : Identity) (c : ContextId) (s' : State),
    Reachable .calm overdue ∧ (∀ p ∈ overdue.ongoing, p.frame.call.yields) ∧
      (∀ p, .recorder p ∉ overdue.state.observers) ∧
      (overdue.state.holding i).slot? c = some ⟨⟨1, .sftp⟩, false, 0, 0⟩ ∧
      (start overdue.state overdue.now (.close i c)).Performs .smooth overdue.now 2
        [.disconnect ⟨1, .sftp⟩] s' (.closed false) ∧
      (s'.holding i).slot? c = none := by
  let i := (sharedRequest 1).identity
  let c : ContextId := ⟨1⟩
  have hreachable : Reachable .calm overdue :=
    reachable_handedBack.next (.pass handedBack _ (by decide))
  have hyields : ∀ p ∈ overdue.ongoing, p.frame.call.yields := fun p hp =>
    absurd (List.length_pos_of_mem hp) (by decide)
  have hbuiltin : ∀ p, .recorder p ∉ overdue.state.observers := by
    intro p hp
    have hobservers : overdue.state.observers = [.log, .inspector] := by cbv
    rw [hobservers] at hp
    simp at hp
  obtain ⟨-, -, -, hclose⟩ := giving_back_touches_own_slot hreachable hyields hbuiltin i c
  obtain ⟨seen, s', result, hperforms, ⟨hresult, halters, hcalls, -⟩, -⟩ :=
    hclose.performs (Nat.le_refl _) .smooth 2
  have hown : (overdue.state.holding i).slot? c = some ⟨⟨1, .sftp⟩, false, 0, 0⟩ := by cbv
  have hleft : (((overdue.state.holding i).inspected overdue.state.policy overdue.now c).slot?
      c).isSome = false := by cbv
  rw [hown] at hcalls
  rw [hleft] at hresult
  rw [hcalls, hresult] at hperforms
  exact ⟨i, c, s', hreachable, hyields, hbuiltin, hown, hperforms, halters.own⟩

end Affine

end ConnectionLeasing

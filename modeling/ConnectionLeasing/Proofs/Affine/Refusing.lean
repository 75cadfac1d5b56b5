import ConnectionLeasing.Proofs.Affine.Exchanges
import ConnectionLeasing.Proofs.Affine.Priority

/-!
# What a refused borrow leaves behind

A borrow that nothing comes between, whatever its calls are answered and however long that takes.
Nothing is assumed of the answers: a handle may be usable at one check and not at the next. Where
the borrow is refused, at any depth of its walk, it has undone what it began, and only the caller's
own slot may be gone.

* `State.Leaves`: an identity is left with a holding, and no borrow was served.
* `concludes_borrow`: what the walk of a borrow may come to.
* `concludes_tell`: what the observers that are told first may do.
* `refused_borrow_leaves_no_trace`: the whole operation.
-/

namespace ConnectionLeasing

/-- How often borrows were served, in all and in each way. -/
def Ledger.served (l : Ledger) : Nat × Nat × Nat × Nat :=
  (l.borrowed, l.reused, l.stolen, l.created)

theorem Ledger.served_add (l : Ledger) {l' : Ledger} (h : l'.served = (0, 0, 0, 0)) :
    (l.add l').served = l.served := by
  simp only [served, Prod.mk.injEq] at h
  simp [served, add, h]

namespace Holding

variable {h h' h'' : Holding} {c : ContextId} {p : RetentionPolicy} {now : Nat} {T : Nat → Prop}

/-! ### The slot of a context is eased -/

/-- The slot of context `c` may have been given back or closed, and nothing else has changed. -/
structure Eases (c : ContextId) (h h' : Holding) : Prop where
  known : h'.known = h.known
  others : ∀ d, d ≠ c → h'.slot? d = h.slot? d
  lent : ∀ d x, h'.slot? d = some x → x.borrowed = true → h.slot? d = some x
  vacant : h.slot? c = none → h' = h

theorem Eases.refl (c : ContextId) (h : Holding) : Eases c h h :=
  ⟨rfl, fun _ _ => rfl, fun _ _ hx _ => hx, fun _ => rfl⟩

theorem Eases.trans (hh : Eases c h h') (hh' : Eases c h' h'') : Eases c h h'' where
  known := hh'.known.trans hh.known
  others d hd := (hh'.others d hd).trans (hh.others d hd)
  lent d x hx hlent := hh.lent d x (hh'.lent d x hx hlent) hlent
  vacant hnone := by
    have hsame := hh.vacant hnone
    exact (hh'.vacant (hsame ▸ hnone)).trans hsame

theorem eases_remove {x : OpenSlot} (hx : h.slot? c = some x) : Eases c h (h.remove c) where
  known := rfl
  others _ hd := Keyed.get?_erase_of_ne _ hd.symm
  lent d y hy _ := by
    have hd : d ≠ c := by
      rintro rfl
      cases (Keyed.get?_erase_self _ _).symm.trans hy
    exact (Keyed.get?_erase_of_ne _ hd.symm).symm.trans hy
  vacant hnone := by cases hnone.symm.trans hx

theorem eases_markIdle {x : OpenSlot} (hx : h.slot? c = some x) (now : Nat) :
    Eases c h (h.write c (x.markIdle now)) where
  known := rfl
  others _ hd := Keyed.get?_put_of_ne _ _ hd.symm
  lent d y hy hlent := by
    have hd : d ≠ c := by
      rintro rfl
      cases (Keyed.get?_put_self _ _ _).symm.trans hy
      cases hlent
    exact (Keyed.get?_put_of_ne _ _ hd.symm).symm.trans hy
  vacant hnone := by cases hnone.symm.trans hx

/-- What the timeouts make of the slot of a context. -/
def inspected (p : RetentionPolicy) (now : Nat) (c : ContextId) (h : Holding) : Holding :=
  match h.slot? c with
  | none => h
  | some x =>
    match p.verdict x.borrowed x.borrowTime x.releaseTime now with
    | .keep => h
    | .release => h.write c (x.markIdle now)
    | .close => h.remove c

theorem inspected_of_none (hnone : h.slot? c = none) : h.inspected p now c = h := by
  rw [inspected, hnone]

theorem inspected_of_some (p : RetentionPolicy) (now : Nat) {x : OpenSlot}
    (hx : h.slot? c = some x) :
    h.inspected p now c = match p.verdict x.borrowed x.borrowTime x.releaseTime now with
      | .keep => h
      | .release => h.write c (x.markIdle now)
      | .close => h.remove c := by
  rw [inspected, hx]

/-- What inspections at some moments in `T` make of it. -/
def Inspected (p : RetentionPolicy) (T : Nat → Prop) (c : ContextId) : Holding → Holding → Prop :=
  Relation.ReflTransGen fun h h' => ∃ t, T t ∧ h' = h.inspected p t c

theorem eases_inspected (p : RetentionPolicy) (now : Nat) (c : ContextId) (h : Holding) :
    Eases c h (h.inspected p now c) := by
  rw [inspected]
  cases hx : h.slot? c with
  | none => exact .refl c h
  | some x =>
    dsimp only
    split
    · exact .refl c h
    · exact eases_markIdle hx now
    · exact eases_remove hx

end Holding

namespace Affine

variable {T : Nat → Prop} {s s' s₁ : State} {now e id : Nat} {i : Identity} {c : ContextId}
  {r : Request} {seen more : List Exchange} {result : Result}

/-! ### Operations that serve nothing -/

/-- The identity is left with the holding `h`. Nothing else has changed, and no borrow was
served. -/
structure State.Leaves (s : State) (i : Identity) (h : Holding) (s' : State) : Prop where
  upright : s'.Upright
  settings : s'.settings = s.settings
  holding : s'.holding i = h
  others : ∀ j, j ≠ i → s'.holding j = s.holding j
  pending : ∀ o, s'.registry.pendingIn o = s.registry.pendingIn o
  served : s'.ledger.served = s.ledger.served

namespace State.Leaves

theorem refl (hs : s.Upright) (i : Identity) : s.Leaves i (s.holding i) s :=
  ⟨hs, rfl, rfl, fun _ _ => rfl, fun _ => rfl, rfl⟩

theorem trans {s'' : State} {h h' : Holding} (hl : s.Leaves i h s') (hl' : s'.Leaves i h' s'') :
    s.Leaves i h' s'' where
  upright := hl'.upright
  settings := hl'.settings.trans hl.settings
  holding := hl'.holding
  others j hj := (hl'.others j hj).trans (hl.others j hj)
  pending o := (hl'.pending o).trans (hl.pending o)
  served := hl'.served.trans hl.served

theorem of_turns {h : Holding} {l : Ledger} (ht : s.Turns i h l s')
    (hpending : ∀ o, s'.registry.pendingIn o = s.registry.pendingIn o)
    (hl : l.served = (0, 0, 0, 0)) : s.Leaves i h s' where
  upright := ht.upright
  settings := ht.settings
  holding := ht.holding
  others := ht.others
  pending := hpending
  served := by rw [ht.ledger, Ledger.served_add _ hl]

theorem booked {h : Holding} (hl : s.Leaves i h s') {l : Ledger} (hserved : l.served = (0, 0, 0, 0))
    (journal : Journal) : s.Leaves i h { s' with ledger := s'.ledger.add l, journal } :=
  hl.trans (hl.holding ▸ of_turns (hl.upright.quiet i l journal) (fun _ => rfl) hserved)

theorem written {h : Holding} (hl : s.Leaves i h s') (journal : Journal) :
    s.Leaves i h { s' with journal } :=
  hl.booked (l := {}) rfl journal

theorem closes (hs : s.Upright) {x : Closing} (he : s.registry.entryId? i = some x.entry)
    (hmem : (x.owner, x.slot) ∈ s.slotsOf x.entry) (failure : Option LeaseError) :
    s.Leaves i ((s.holding i).remove x.owner) ((s.beginClosing x).finishClosing x failure) :=
  of_turns (hs.closes he hmem failure)
    (fun o => by rw [registry_finishClosing, Registry.pendingIn_detach]; rfl) rfl

theorem welcomes (hs : s.Upright) (i : Identity) :
    s.Leaves i (s.holding i).welcome { s with registry := (s.registry.ensure i).1 } :=
  of_turns (hs.welcomes i) (fun o => Registry.pendingIn_ensure o) rfl

end State.Leaves

/-! ### What the walk of a borrow may come to -/

/-- A slot of the caller's own was found unusable, or is idle and has another channel. -/
def OfNoUse (r : Request) (seen : List Exchange) (x : OpenSlot) : Prop :=
  ⟨.check x.handle, false⟩ ∈ seen ∨ x.borrowed = false ∧ x.handle.channel ≠ r.channel

/-- What a borrow may come to that starts from `s`. -/
inductive State.ComesTo (s : State) (r : Request) : List Exchange → State → Result → Prop
  | lent {seen : List Exchange} {s' : State} (g : Handle) : s.ComesTo r seen s' (.lent g)
  /-- The borrow is refused and has closed nothing. -/
  | refused {seen : List Exchange} {s' : State} {error : LeaseError}
    (hl : s.Leaves r.identity (s.holding r.identity).welcome s') :
    s.ComesTo r seen s' (.refused error)
  /-- The borrow is refused after the caller's own slot was closed. -/
  | bereft {seen : List Exchange} {s' : State} {error : LeaseError} {x : OpenSlot}
    {failure : Option LeaseError} (hx : (s.holding r.identity).slot? r.context = some x)
    (huseless : OfNoUse r seen x) (hclosed : ⟨.disconnect x.handle, failure⟩ ∈ seen)
    (hl : s.Leaves r.identity ((s.holding r.identity).remove r.context) s') :
    s.ComesTo r seen s' (.refused error)

namespace State.ComesTo

theorem mono (h : s.ComesTo r seen s' result) (hsub : seen ⊆ more) :
    s.ComesTo r more s' result := by
  cases h with
  | lent g => exact .lent g
  | refused hl => exact .refused hl
  | bereft hx huseless hclosed hl =>
    exact .bereft hx (huseless.imp_left fun hmem => hsub hmem) (hsub hclosed) hl

theorem cons {x : Exchange} (h : s.ComesTo r seen s' result) :
    s.ComesTo r (x :: seen) s' result :=
  h.mono (List.subset_cons_self x seen)

theorem after (hl : s.Leaves r.identity (s.holding r.identity) s₁)
    (h : s₁.ComesTo r seen s' result) : s.ComesTo r seen s' result := by
  have hsame := hl.holding
  cases h with
  | lent g => exact .lent g
  | refused hl' => exact .refused (hsame ▸ hl.trans hl')
  | bereft hx huseless hclosed hl' =>
    exact .bereft (hsame ▸ hx) huseless hclosed (hsame ▸ hl.trans hl')

end State.ComesTo

/-! ### A new connection -/

section known
variable (hs : s.Upright) (he : s.registry.entryId? r.identity = some e)
include hs he

end known

/-- What is heard of an inspection of the slot of a context, and the moment it is through: a slot
that stays is not called about, and one that goes is disconnected. -/
structure Inspects (p : RetentionPolicy) (now : Nat) (c : ContextId) (h : Holding)
    (seen : List Exchange) (through : Nat) : Prop where
  stays : ((h.inspected p now c).slot? c).isSome → seen = [] ∧ through = now
  goes : (h.inspected p now c).slot? c = none →
    seen.map (·.call) = (h.slot? c).toList.map fun x => .disconnect x.handle

theorem Inspects.silent {p : RetentionPolicy} {h : Holding}
    (hslot : ((h.inspected p now c).slot? c).isSome ∨ h.slot? c = none) :
    Inspects p now c h [] now where
  stays _ := ⟨rfl, rfl⟩
  goes hgone := by
    rcases hslot with hstays | hnone
    · rw [hgone] at hstays
      cases hstays
    · rw [hnone]
      rfl

theorem concludes_inspecting (hs : s.Upright) (hnow : T now) (t : Telling)
    (observers : List Observer) {Q : List Exchange → State → Result → Prop}
    (hrest : ∀ s₁ t₁ seen, T t₁ → s.Leaves t.announcement.identity
      ((s.holding t.announcement.identity).inspected s.policy now t.announcement.context) s₁ →
      Inspects s.policy now t.announcement.context (s.holding t.announcement.identity) seen t₁ →
      (tell t₁ t s₁ observers).Concludes T fun more => Q (seen ++ more)) :
    (tell now t s (.inspector :: observers)).Concludes T Q := by
  have hnothing : (s.holding t.announcement.identity).slot? t.announcement.context = none →
      (tell now t s observers).Concludes T Q := by
    intro hslot
    refine hrest s now [] hnow ?_ (.silent (.inr hslot))
    rw [Holding.inspected_of_none hslot]
    exact .refl hs _
  rw [tell, inspect]
  rcases hs.ownSlot t.announcement.identity t.announcement.context with
    ⟨hslot, -, hown⟩ | ⟨e, id, x, he, hslot, -, hmem, hx, hown⟩
  · rw [hown]
    exact hnothing hslot
  · rw [hown]
    dsimp only
    have hinspected := Holding.inspected_of_some s.policy now hslot
    rw [State.verdict_of_openSlot? hx]
    cases hv : s.policy.verdict x.borrowed x.borrowTime x.releaseTime now with
    | keep =>
      rw [hv] at hinspected
      refine hrest s now [] hnow (hinspected ▸ .refl hs _) (.silent (.inl ?_))
      rw [hinspected, hslot]
      rfl
    | release =>
      rw [hv] at hinspected
      have hl := State.Leaves.of_turns (hs.marksIdle he hmem hx now) (fun _ => rfl) rfl
      refine hrest _ now [] hnow (hinspected ▸ hl.booked (l := { evictedReleased := 1 }) rfl _)
        (.silent (.inl ?_))
      rw [hinspected, Holding.slot?, Holding.write, Keyed.get?_put_self]
      rfl
    | close =>
      rw [hv] at hinspected
      refine .paused fun t₁ ht₁ failure => ?_
      have hl := State.Leaves.closes hs
        (x := ⟨t.announcement.identity, e, id, t.announcement.context, x.handle⟩) he hmem failure
      refine hrest _ t₁ [_] ht₁ (hinspected ▸ hl.booked (l := { evictedClosed := 1 }) rfl _)
        ⟨fun hstays => ?_, fun _ => ?_⟩
      · rw [hinspected, Holding.slot?, Holding.remove, Keyed.get?_erase_self] at hstays
        cases hstays
      · rw [hslot]
        rfl

end Affine

end ConnectionLeasing

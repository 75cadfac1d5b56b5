import ConnectionLeasing.Proofs.Affine.Limit

/-!
# The entry an identity is known by

An entry in which something is registered or pending is the one its identity is known by, unless
everything is being closed: only that makes the registry forget entries that are in use.

* `Change.entryId?_cases`: how the entry of an identity can change.
* `Change.anchored`: an entry in use stays the known one, whatever else happens.
* `Change.unanchored`: an entry that was forgotten is never known again.
-/

namespace ConnectionLeasing.Affine

/-! ### The entry in the middle of an operation -/

namespace Stage

/-- Something is registered or pending in an entry. -/
def InUse (g : Stage) (e : Nat) : Prop :=
  (∃ c id, g.state.slotIn? e c = some id) ∨ 0 < g.state.registry.pendingIn e

/-- If an entry was made for the identity and is in use, then the identity is known by it. -/
def Anchored (i : Identity) (e : Nat) (g : Stage) : Prop :=
  g.homes[e]? = some i → g.InUse e → g.state.registry.entryId? i = some e

theorem InUse.not_vacant {g : Stage} {e : Nat} (h : g.InUse e) :
    (g.state.registry.entry e).isVacant = false := by
  rcases h with ⟨c, id, hs⟩ | hp
  · have hm := Registry.mem_of_slotIn? hs
    cases hl : (g.state.registry.entry e).slots with
    | nil =>
      rw [hl] at hm
      cases hm
    | cons p rest => simp [Entry.isVacant, hl]
  · have hne : (g.state.registry.entry e).pending ≠ 0 := Nat.pos_iff_ne_zero.mp hp
    simp [Entry.isVacant, hne]

section inUse
variable {g : Stage} {e e' : Nat}

theorem InUse.of_know {i : Identity} (h : { g.withRegistry (g.state.registry.ensure i).1 with
    homes := g.homes ++ [i] }.InUse e) : g.InUse e := by
  rcases h with ⟨c, id, hs⟩ | hp
  · exact .inl ⟨c, id, (Registry.slotIn?_ensure e c).symm.trans hs⟩
  · exact .inr (Nat.lt_of_lt_of_eq hp (Registry.pendingIn_ensure e))

theorem InUse.of_claim (hlt : e' < g.state.registry.entries.length)
    (h : { g.withRegistry (g.state.registry.claim e') with claim := some e' }.InUse e) :
    e' = e ∨ g.InUse e := by
  rcases h with ⟨c, id, hs⟩ | hp
  · exact .inr (.inl ⟨c, id, (Registry.slotIn?_claim e c).symm.trans hs⟩)
  · have hp : 0 < (g.state.registry.claim e').pendingIn e := hp
    rw [Registry.pendingIn_claim e hlt] at hp
    split at hp
    · rename_i heq
      exact .inl heq
    · exact .inr (.inr hp)

theorem InUse.of_cancel
    (h : { g.withRegistry (g.state.registry.cancel e') with claim := none }.InUse e) :
    g.InUse e := by
  rcases h with ⟨c, id, hs⟩ | hp
  · exact .inl ⟨c, id, (Registry.slotIn?_cancel e c).symm.trans hs⟩
  · have hp : 0 < (g.state.registry.cancel e').pendingIn e := hp
    rw [Registry.pendingIn_cancel] at hp
    split at hp
    · exact .inr (by omega)
    · exact .inr hp

theorem InUse.of_register {now : Nat} {r : Request} {x : Handle}
    (hpos : 0 < g.state.registry.pendingIn e') (h : (g.register now r e' x).InUse e) :
    g.InUse e := by
  by_cases heq : e' = e
  · subst heq
    exact .inr hpos
  · rcases h with ⟨c, id, hs⟩ | hp
    · rw [slotIn?_register (Registry.lt_of_pendingIn hpos), if_neg fun h => heq h.1] at hs
      exact .inl ⟨c, id, hs⟩
    · have hp : 0 < ((g.state.registry.cancel e').insert e' r.context
          g.state.slots.length).1.pendingIn e := hp
      rw [Registry.pendingIn_insert, Registry.pendingIn_cancel, if_neg heq] at hp
      exact .inr hp

theorem InUse.of_move {now : Nat} {r : Request} {source : ContextId} {id : Nat}
    (hs : g.state.slotIn? e' source = some id) (h : (g.move now r e' source id).InUse e) :
    g.InUse e := by
  rcases h with ⟨c, id', hs'⟩ | hp
  · rw [slotIn?_move hs] at hs'
    split at hs'
    · rename_i heq
      exact .inl ⟨source, id, heq.1 ▸ hs⟩
    · split at hs'
      · cases hs'
      · exact .inl ⟨c, id', hs'⟩
  · have hp : 0 < ((g.state.registry.detach e' source id).insert e' r.context
        id).1.pendingIn e := hp
    rw [Registry.pendingIn_insert, Registry.pendingIn_detach] at hp
    exact .inr hp

theorem InUse.of_finish {x : Closing} {failure : Option LeaseError}
    (h : (g.finish x failure).InUse e) : g.InUse e := by
  rcases h with ⟨c, id, hs⟩ | hp
  · have hs : (g.state.finishClosing x failure).slotIn? e c = some id := hs
    rw [State.slotIn?_finishClosing] at hs
    split at hs
    · cases hs
    · exact .inl ⟨c, id, hs⟩
  · have hp : 0 < (g.state.finishClosing x failure).registry.pendingIn e := hp
    rw [State.registry_finishClosing, Registry.pendingIn_detach] at hp
    exact .inr hp

end inUse

end Stage

section change
variable {calm : Prop} {k : Command} {now : Nat} {others : Nat → Nat} {g g' : Stage}

/-- An identity stays known by its entry, becomes known by a new one, or is forgotten: when nothing
is left in its entry, or when everything is closed. -/
theorem Change.entryId?_cases (h : Change calm k now g g') (i : Identity) :
    g'.state.registry.entryId? i = g.state.registry.entryId? i ∨
    (g.state.registry.entryId? i = none ∧
      g'.state.registry.entryId? i = some g.state.registry.entries.length) ∨
    (g'.state.registry.entryId? i = none ∧ (k = .closeAll ∨
      ∃ e, g.state.registry.entryId? i = some e ∧ (g.state.registry.entry e).isVacant)) := by
  cases h with
  | know j hn =>
    have hent := Registry.entryId?_ensure hn i
    split at hent
    · rename_i hj
      exact .inr (.inl ⟨hj ▸ hn, hent⟩)
    · exact .inl hent
  | finish x failure hx =>
    left
    show (g.state.finishClosing x failure).registry.entryId? i = _
    rw [State.registry_finishClosing]
    rfl
  | forget j e hf =>
    have hent : (g.state.registry.forget j).entryId? i = _ := Keyed.get?_erase _ j i
    split at hent
    · rename_i hj
      subst hj
      simp only [Registry.isForgettable, Bool.and_eq_true, decide_eq_true_eq] at hf
      exact .inr (.inr ⟨hent, .inr ⟨e, hf⟩⟩)
    · exact .inl hent
  | drain hk => exact .inr (.inr ⟨rfl, .inl hk⟩)
  | silent | claim | cancel | register | idle | lend | move | take => exact .inl rfl

theorem Change.inUse (h : Change calm k now g g') (hi : g.Indexed) (hm : g.Metered others)
    {e : Nat} (hu : g'.InUse e) : g.InUse e ∨ ∃ j, g.state.registry.entryId? j = some e ∧
      g'.state.registry.known = g.state.registry.known := by
  cases h with
  | know j hn => exact .inl hu.of_know
  | claim j e' hn room hg =>
    have hlt : e' < g.state.registry.entries.length := by
      rw [← hi.homes]
      exact (List.getElem?_eq_some_iff.mp (hi.home _ (Keyed.mem_of_get? hn))).1
    rcases hu.of_claim hlt with rfl | hu
    · exact .inr ⟨j, hn, rfl⟩
    · exact .inl hu
  | cancel e' hg => exact .inl hu.of_cancel
  | register r e' x hk hg hd he hh =>
    -- the entry is in use already, by the claim in hand
    have hpos : 0 < g.state.registry.pendingIn e' := by
      have hp := (hm e').1
      rw [if_pos hg] at hp
      omega
    exact .inl (hu.of_register hpos)
  | move r e' source id hk hs hd hne he ho hl => exact .inl (hu.of_move hs)
  | finish x failure hx => exact .inl hu.of_finish
  | silent | idle | lend | take | forget | drain => exact .inl hu

/-- **An entry in use stays the known one**, unless everything is closed. -/
theorem Change.anchored (h : Change calm k now g g') (hi : g.Indexed) (hm : g.Metered others)
    (hk : k ≠ .closeAll) {i : Identity} {e : Nat} (ha : g.Anchored i e) : g'.Anchored i e := by
  intro hhome hu
  rcases h.inUse hi hm hu with hu | ⟨j, hj, hknown⟩
  · have hlt : e < g.homes.length := by
      rw [hi.homes]
      rcases hu with ⟨c, id, hs⟩ | hp
      · exact Registry.lt_of_slotIn? hs
      · exact Registry.lt_of_pendingIn hp
    have hhome' : g.homes[e]? = some i := by
      obtain ⟨t, ht⟩ := h.grows.1
      rw [← ht, List.getElem?_append_left hlt] at hhome
      exact hhome
    have hent := ha hhome' hu
    rcases h.entryId?_cases i with heq | ⟨hnone, -⟩ | ⟨-, hall | ⟨e', he', hvacant⟩⟩
    · exact heq.trans hent
    · rw [hnone] at hent
      cases hent
    · exact absurd hall hk
    · rw [hent] at he'
      cases he'
      rw [hu.not_vacant] at hvacant
      cases hvacant
  · have hhome' : g'.homes[e]? = some j :=
      Stage.getElem?_of_isPrefix h.grows.1 (hi.home _ (Keyed.mem_of_get? hj))
    rw [hhome] at hhome'
    cases hhome'
    rw [Registry.entryId?, hknown]
    exact hj

theorem Trail.anchored (h : Trail calm k now g g') (hi : g.Indexed) (hm : g.Metered others)
    (hk : k ≠ .closeAll) {i : Identity} {e : Nat} (ha : g.Anchored i e) : g'.Anchored i e := by
  induction h with
  | refl => exact ha
  | tail trail step ih =>
    exact step.anchored (Trail.indexed trail hi) (Trail.metered trail hi hm) hk ih

theorem Change.unanchored (h : Change calm k now g g') {i : Identity} {e : Nat}
    (hlt : e < g.state.registry.entries.length) (hn : g.state.registry.entryId? i ≠ some e) :
    g'.state.registry.entryId? i ≠ some e := by
  rcases h.entryId?_cases i with heq | ⟨-, hnew⟩ | ⟨hnone, -⟩
  · rw [heq]
    exact hn
  · rw [hnew]
    intro he
    cases he
    exact Nat.lt_irrefl _ hlt
  · rw [hnone]
    intro he
    cases he

theorem Trail.unanchored (h : Trail calm k now g g') (hi : g.Indexed) {i : Identity} {e : Nat}
    (hlt : e < g.homes.length) (hn : g.state.registry.entryId? i ≠ some e) :
    g'.state.registry.entryId? i ≠ some e := by
  induction h with
  | refl => exact hn
  | tail trail step ih =>
    refine step.unanchored ?_ ih
    rw [← (Trail.indexed trail hi).homes]
    exact Nat.lt_of_lt_of_le hlt (Trail.grows trail).1.length_le

end change

end ConnectionLeasing.Affine

import ConnectionLeasing.Proofs.Affine.Culling

/-!
# The sweep of several identities

In a manager whose identities have entries and slots of their own (`State.Upright`), the sweep of
one identity is nothing to the others. So a sweep of several comes to what the sweeps of each of
them come to (`State.Swept`), in any order.

* `Swept.upright`, `Swept.cons`: what is swept stays upright, and sweeps add up.
* `ends_sweepAll`: every sweep of some identities comes to an end, and reports what was due.
* `Swept.dueReport`, `sweepAll_of_nothing_due`: nothing is due after it, and then a sweep does
  nothing.
-/

namespace ConnectionLeasing.Affine

variable {s s' s'' : State} {now e : Nat} {k : Identity × Nat} {es : List (Identity × Nat)}

/-- Every identity is known once, by an entry of its own, and the slots of these entries are open
under their keys and have handles of their own. -/
structure State.Upright (s : State) : Prop where
  identities : (Keyed.keys s.registry.known).Nodup
  entries : (s.registry.known.map (·.2)).Nodup
  made : ∀ k ∈ s.registry.known, k.2 < s.registry.entries.length
  contexts : ∀ k ∈ s.registry.known, (Keyed.keys (s.slotsOf k.2)).Nodup
  opened : ∀ k ∈ s.registry.known, ∀ p ∈ s.slotsOf k.2, ∃ h, s.openHandle? p.1 p.2 = some h
  handles : ∀ k ∈ s.registry.known, ∀ k' ∈ s.registry.known, ∀ p ∈ s.slotsOf k.2,
    ∀ p' ∈ s.slotsOf k'.2, s.handle? p.2 = s.handle? p'.2 → k = k' ∧ p = p'

namespace State.Upright

variable (hs : s.Upright)
include hs

theorem slot_inj {k k' : Identity × Nat} (hk : k ∈ s.registry.known) (hk' : k' ∈ s.registry.known)
    {p p' : ContextId × Nat} (hp : p ∈ s.slotsOf k.2) (hp' : p' ∈ s.slotsOf k'.2)
    (h : p.2 = p'.2) : k = k' ∧ p = p' :=
  hs.handles k hk k' hk' p hp p' hp' (by rw [h])

theorem entry_inj {k k' : Identity × Nat} (hk : k ∈ s.registry.known)
    (hk' : k' ∈ s.registry.known) (h : k.2 = k'.2) : k = k' :=
  List.inj_on_of_nodup_map hs.entries hk hk' h

theorem live (hk : k ∈ s.registry.known) : s.Live k.2 := by
  have hnodup : (s.slotsOf k.2).Nodup := .of_map _ (hs.contexts k hk)
  refine ⟨hs.contexts k hk, hnodup.map_on fun p hp p' hp' h => ?_, hs.opened k hk⟩
  exact (hs.slot_inj hk hk hp hp' h).2

end State.Upright

/-- **A manager that is not disconnecting anything is upright**, as long as checks and disconnects
do not call it back. -/
theorem Reachable.upright {m : System} (hm : Reachable .calm m)
    (hyields : ∀ o ∈ m.ongoing, o.frame.call.yields) : m.state.Upright := by
  obtain ⟨g, hg⟩ := hm.calm_good
  have hsound : g.Sound := hg.sound trivial
  have hclosing : g.closing = none :=
    (hg.closing trivial).trans (System.closing_of_yields hyields)
  rw [← hg.state]
  have hregistered : ∀ {k : Identity × Nat} {p : ContextId × Nat}, p ∈ g.state.slotsOf k.2 →
      g.state.slotIn? k.2 p.1 = some p.2 := fun hp =>
    Registry.slotIn?_of_mem hsound.indexed.keys hp
  have hentries : ∀ k ∈ g.state.registry.known, ∀ k' ∈ g.state.registry.known, k.2 = k'.2 →
      k = k' := by
    intro k hk k' hk' heq
    have hhome := (hsound.indexed.home k hk).symm.trans (heq ▸ hsound.indexed.home k' hk')
    exact Prod.ext (Option.some.inj hhome) heq
  refine ⟨hsound.indexed.known, ?_, fun k hk => ?_, fun k _ => hsound.indexed.keys k.2,
    fun k _ p hp => hsound.openHandle? hclosing (hregistered hp),
    fun k hk k' hk' p hp p' hp' heq => ?_⟩
  · exact (List.Nodup.of_map _ hsound.indexed.known).map_on hentries
  · rw [← hsound.indexed.homes]
    exact (List.getElem?_eq_some_iff.mp (hsound.indexed.home k hk)).1
  · obtain ⟨x, hx⟩ := hsound.openHandle? hclosing (hregistered hp)
    have hhandle := (State.openHandle?_eq_some hx).2
    have hid := hsound.accounted.once _ _ x hhandle (heq ▸ hhandle)
    obtain ⟨he, hc⟩ := hsound.placed.slotIn?_inj (hregistered hp) (hid ▸ hregistered hp')
    exact ⟨hentries k hk k' hk' he.symm, Prod.ext hc.symm hid⟩

/-- What a sweep of some identities makes of a manager: their entries keep what their own sweeps
leave, nothing else has happened to slots, and those of the identities that have nothing left are
forgotten. -/
structure State.Swept (s : State) (now : Nat) (es : List (Identity × Nat)) (s' : State) : Prop where
  settings : s'.settings = s.settings
  made : s'.registry.entries.length = s.registry.entries.length
  known : s'.registry.known =
    s.registry.known.filter fun k => k ∉ es || !(s'.registry.entry k.2).isVacant
  entry : ∀ k ∈ es,
    s'.registry.entry k.2 = { s.registry.entry k.2 with slots := s.kept now k.2 }
  others : ∀ e, e ∉ es.map (·.2) → s'.registry.entry e = s.registry.entry e
  aged : ∀ k ∈ es, ∀ p ∈ s.kept now k.2, s'.slot? p.2 = s.aged? now p.2
  closed : ∀ k ∈ es, ∀ p ∈ s.slotsOf k.2, p ∉ s.kept now k.2 → s'.handle? p.2 = none
  untouched : ∀ id, (∀ k ∈ es, id ∉ (s.slotsOf k.2).map (·.2)) → s'.slot? id = s.slot? id

namespace State.Swept

theorem nil (s : State) (now : Nat) : s.Swept now [] s where
  settings := rfl
  made := rfl
  known := (List.filter_eq_self.mpr fun k _ => by simp).symm
  entry k hk := absurd hk List.not_mem_nil
  others _ _ := rfl
  aged k hk := absurd hk List.not_mem_nil
  closed k hk := absurd hk List.not_mem_nil
  untouched _ _ := rfl

theorem slotsOf (h : s.Swept now es s') (hk : k ∈ es) : s'.slotsOf k.2 = s.kept now k.2 := by
  rw [State.slotsOf, h.entry k hk]

theorem pendingIn (h : s.Swept now es s') (hk : k ∈ es) :
    s'.registry.pendingIn k.2 = s.registry.pendingIn k.2 := by
  rw [Registry.pendingIn, h.entry k hk, Registry.pendingIn]

theorem spares (h : s.Swept now es s') (hs : s.Upright) (hes : es ⊆ s.registry.known)
    (hk : k ∈ s.registry.known) (hne : k ∉ es) :
    s'.registry.entry k.2 = s.registry.entry k.2 ∧ s.Spares k.2 s' := by
  have hentry : s'.registry.entry k.2 = s.registry.entry k.2 := by
    refine h.others k.2 fun hmem => ?_
    obtain ⟨k', hk', heq⟩ := List.mem_map.mp hmem
    exact hne (hs.entry_inj (hes hk') hk heq ▸ hk')
  refine ⟨hentry, h.settings, by rw [State.slotsOf, hentry, State.slotsOf], fun p hp => ?_⟩
  refine h.untouched p.2 fun k' hk' hmem => ?_
  obtain ⟨p', hp', heq⟩ := List.mem_map.mp hmem
  exact hne ((hs.slot_inj (hes hk') hk hp' hp heq).1 ▸ hk')

theorem mem_known (h : s.Swept now es s') (hk : k ∈ s'.registry.known) :
    k ∈ s.registry.known := by
  rw [h.known] at hk
  exact List.mem_of_mem_filter hk

/-- A slot that is registered under an identity after a sweep was so before, under the same key and
with the same handle. -/
theorem before (h : s.Swept now es s') (hs : s.Upright) (hes : es ⊆ s.registry.known)
    (hk : k ∈ s.registry.known) {p : ContextId × Nat} (hp : p ∈ s'.slotsOf k.2) :
    p ∈ s.slotsOf k.2 ∧ s'.openHandle? p.1 p.2 = s.openHandle? p.1 p.2 ∧
      s'.handle? p.2 = s.handle? p.2 := by
  by_cases hmem : k ∈ es
  · rw [h.slotsOf hmem] at hp
    refine ⟨State.mem_slotsOf_of_mem_kept hp, ?_, ?_⟩
    · rw [State.openHandle?, h.aged k hmem p hp]
      exact bind_aged? (fun _ => rfl) p.2
    · rw [State.handle?, h.aged k hmem p hp]
      exact bind_aged? (fun _ => rfl) p.2
  · obtain ⟨-, hspares⟩ := h.spares hs hes hk hmem
    rw [hspares.slotsOf] at hp
    refine ⟨hp, ?_, ?_⟩
    · rw [State.openHandle?, hspares.slot? p hp, State.openHandle?]
    · rw [State.handle?, hspares.slot? p hp, State.handle?]

theorem upright (h : s.Swept now es s') (hs : s.Upright) (hes : es ⊆ s.registry.known) :
    s'.Upright := by
  have hsub : s'.registry.known.Sublist s.registry.known := h.known ▸ List.filter_sublist
  refine ⟨hs.identities.sublist (hsub.map _), hs.entries.sublist (hsub.map _), fun k hk => ?_,
    fun k hk => ?_, fun k hk p hp => ?_, fun k hk k' hk' p hp p' hp' heq => ?_⟩
  · rw [h.made]
    exact hs.made k (h.mem_known hk)
  · by_cases hmem : k ∈ es
    · rw [h.slotsOf hmem]
      exact (hs.contexts k (h.mem_known hk)).sublist (List.filter_sublist.map _)
    · rw [(h.spares hs hes (h.mem_known hk) hmem).2.slotsOf]
      exact hs.contexts k (h.mem_known hk)
  · obtain ⟨hold, hopen, -⟩ := h.before hs hes (h.mem_known hk) hp
    rw [hopen]
    exact hs.opened k (h.mem_known hk) p hold
  · obtain ⟨hold, -, hhandle⟩ := h.before hs hes (h.mem_known hk) hp
    obtain ⟨hold', -, hhandle'⟩ := h.before hs hes (h.mem_known hk') hp'
    rw [hhandle, hhandle'] at heq
    exact hs.handles k (h.mem_known hk) k' (h.mem_known hk') p hold p' hold' heq

theorem cons (h : s.Swept now [k] s') (h' : s'.Swept now es s'') (hs : s.Upright)
    (hes : k :: es ⊆ s.registry.known) (hn : k ∉ es) : s.Swept now (k :: es) s'' := by
  have hk : k ∈ s.registry.known := hes List.mem_cons_self
  have hrest : es ⊆ s.registry.known := fun k' hk' => hes (List.mem_cons_of_mem _ hk')
  have hone : [k] ⊆ s.registry.known := by simpa using hk
  have hother : ∀ k' ∈ es, k' ∉ [k] := fun k' hk' heq => hn (List.mem_singleton.mp heq ▸ hk')
  -- the first sweep leaves the entries of the others alone, and theirs leave its entry alone
  have hspares : ∀ k' ∈ es, s'.registry.entry k'.2 = s.registry.entry k'.2 ∧ s.Spares k'.2 s' :=
    fun k' hk' => h.spares hs hone (hrest hk') (hother k' hk')
  have hentry : s''.registry.entry k.2 = s'.registry.entry k.2 := by
    refine h'.others k.2 fun hmem => ?_
    obtain ⟨k', hk', heq⟩ := List.mem_map.mp hmem
    exact hn (hs.entry_inj (hrest hk') hk heq ▸ hk')
  have hslot : ∀ p ∈ s.slotsOf k.2, s''.slot? p.2 = s'.slot? p.2 := by
    intro p hp
    refine h'.untouched p.2 fun k' hk' hmem => ?_
    obtain ⟨p', hp', heq⟩ := List.mem_map.mp hmem
    rw [(hspares k' hk').2.slotsOf] at hp'
    exact hn ((hs.slot_inj (hrest hk') hk hp' hp heq).1 ▸ hk')
  refine ⟨h'.settings.trans h.settings, h'.made.trans h.made, ?_,
    fun k' hk' => ?_, fun e he => ?_, fun k' hk' p hp => ?_, fun k' hk' p hp hgone => ?_,
    fun id hid => ?_⟩
  · rw [h'.known, h.known, List.filter_filter]
    refine List.filter_congr fun k' _ => ?_
    by_cases heq : k' = k
    · subst heq
      simp [hn, hentry]
    · simp [heq]
  · rcases List.mem_cons.mp hk' with rfl | hk'
    · rw [hentry]
      exact h.entry k' List.mem_cons_self
    · obtain ⟨hsame, hspared⟩ := hspares k' hk'
      rw [h'.entry k' hk', hsame, hspared.kept]
  · rw [List.map_cons, List.mem_cons, not_or] at he
    exact (h'.others e he.2).trans (h.others e (by simpa using he.1))
  · rcases List.mem_cons.mp hk' with rfl | hk'
    · rw [hslot p (State.mem_slotsOf_of_mem_kept hp)]
      exact h.aged k' List.mem_cons_self p hp
    · have hspared := (hspares k' hk').2
      rw [← hspared.kept] at hp
      rw [h'.aged k' hk' p hp]
      refine aged?_congr (hspared.slot? p ?_) h.settings
      rw [← hspared.slotsOf]
      exact State.mem_slotsOf_of_mem_kept hp
  · rcases List.mem_cons.mp hk' with rfl | hk'
    · rw [State.handle?, hslot p hp]
      exact h.closed k' List.mem_cons_self p hp hgone
    · have hspared := (hspares k' hk').2
      rw [← hspared.kept] at hgone
      exact h'.closed k' hk' p (hspared.slotsOf ▸ hp) hgone
  · refine (h'.untouched id fun k' hk' => ?_).trans (h.untouched id fun k' hk' => ?_)
    · rw [(hspares k' hk').2.slotsOf]
      exact hid k' (List.mem_cons_of_mem _ hk')
    · rw [List.mem_singleton.mp hk']
      exact hid k List.mem_cons_self

end State.Swept

/-! ### The sweep of one identity -/

theorem endSweep_tables (s : State) (w : Sweep) : (endSweep s w).settings = s.settings ∧
    (endSweep s w).slots = s.slots ∧ (endSweep s w).registry =
      if s.registry.isForgettable w.identity w.entry then s.registry.forget w.identity
      else s.registry := by
  have hforget : ∀ {s₁ : State}, s₁.settings = s.settings → s₁.slots = s.slots →
      s₁.registry = s.registry →
      let s₂ := if s₁.registry.isForgettable w.identity w.entry then
        { s₁ with registry := s₁.registry.forget w.identity }.note (.forgot w.identity) else s₁
      s₂.settings = s.settings ∧ s₂.slots = s.slots ∧ s₂.registry =
        if s.registry.isForgettable w.identity w.entry then s.registry.forget w.identity
        else s.registry := by
    intro s₁ hsettings hslots hregistry
    dsimp only
    rw [hregistry]
    split
    · exact ⟨hsettings, hslots, rfl⟩
    · exact ⟨hsettings, hslots, hregistry⟩
  rw [endSweep]
  split <;> exact hforget rfl rfl rfl

theorem entries_endSweep (s : State) (w : Sweep) :
    (endSweep s w).registry.entries = s.registry.entries := by
  rw [(endSweep_tables s w).2.2]
  split <;> rfl

theorem entry_endSweep (s : State) (w : Sweep) (e : Nat) :
    (endSweep s w).registry.entry e = s.registry.entry e := by
  rw [Registry.entry, entries_endSweep, Registry.entry]

theorem slot?_endSweep (s : State) (w : Sweep) (id : Nat) :
    (endSweep s w).slot? id = s.slot? id := by
  rw [State.slot?, (endSweep_tables s w).2.1, State.slot?]

theorem State.Pruned.swept (hs : s.Upright) (hk : k ∈ s.registry.known)
    (h : s.Pruned now k.2 s') (report : SweepReport) :
    s.Swept now [k] (endSweep s' ⟨k.1, k.2, now, report⟩) := by
  obtain ⟨s₁, h₁, h₂⟩ := h
  obtain ⟨hsettings, hslots, hregistry⟩ := endSweep_tables s' ⟨k.1, k.2, now, report⟩
  have hentries := entries_endSweep s' ⟨k.1, k.2, now, report⟩
  have hentry := entry_endSweep s' ⟨k.1, k.2, now, report⟩
  have hslot := slot?_endSweep s' ⟨k.1, k.2, now, report⟩
  generalize endSweep s' ⟨k.1, k.2, now, report⟩ = s'' at *
  have hknown : s'.registry.known = s.registry.known := by rw [h₂.known, h₁.registry]
  have hgone := s.gone_subset now k.2
  refine ⟨hsettings.trans (h₂.settings.trans h₁.settings),
    by rw [hentries, h₂.made, h₁.registry], ?_,
    fun k' hk' => ?_, fun e he => ?_, fun k' hk' p hp => ?_, fun k' hk' p hp hleft => ?_,
    fun id hid => ?_⟩
  · have hfind : s'.registry.entryId? k.1 = some k.2 := by
      rw [Registry.entryId?, hknown]
      exact (Keyed.get?_eq_some_iff hs.identities k.1 k.2).mpr hk
    have hforget : s'.registry.isForgettable k.1 k.2 = (s'.registry.entry k.2).isVacant := by
      rw [Registry.isForgettable, hfind, decide_eq_true rfl, Bool.true_and]
    simp only [hentry]
    rw [hregistry, hforget]
    split
    · rename_i hvacant
      refine (congrArg (Keyed.erase · k.1) hknown).trans (List.filter_congr fun k' hk' => ?_)
      by_cases heq : k' = k
      · simp [heq, hvacant]
      · have hne : k'.1 ≠ k.1 := fun h => heq (List.inj_on_of_nodup_map hs.identities hk' hk h)
        simp [heq, hne]
    · rename_i hused
      rw [hknown]
      refine (List.filter_eq_self.mpr fun k' _ => ?_).symm
      by_cases heq : k' = k
      · simp [heq, hused]
      · simp [heq]
  · obtain rfl := List.mem_singleton.mp hk'
    rw [hentry, h₂.entry, h₁.slotsOf, h₁.registry]
    rfl
  · rw [hentry, h₂.others e (by simpa using he), h₁.registry]
  · obtain rfl := List.mem_singleton.mp hk'
    obtain ⟨hmem, hstale, hsurplus⟩ := State.mem_kept.mp hp
    rw [hslot]
    exact (h₁.left (hs.live hk) h₂ hgone hmem (by simp [hstale, hsurplus])).2
  · obtain rfl := List.mem_singleton.mp hk'
    rw [State.handle?, hslot]
    refine h₂.closed p ?_
    by_contra hne
    exact hleft (List.mem_filter.mpr ⟨hp, by simpa using hne⟩)
  · have hid' := hid k List.mem_cons_self
    rw [hslot, h₂.slot? id fun hmem => hid' (List.map_subset _ hgone hmem)]
    exact h₁.others id hid'

/-! ### The sweep of some identities -/

/-- What the sweep of some identities reports. -/
def State.dueTotal (s : State) (now : Nat) (es : List (Identity × Nat)) : SweepReport :=
  es.foldr (fun k total => (s.dueReport now k.2).merge total) {}

/-- The sweep of some identities, one by one, as in a sweep of everything: each ends with forgetting
its identity if nothing is left of it. -/
def sweepOf (s : State) (now : Nat) (es : List (Identity × Nat)) : Step :=
  sweepAll now .report (AfterSweep.report.continue now) s {} es

variable {Q : State → Result → Prop}

/-- **The sweep of some identities comes to an end**, with the sum of what was due in each. -/
theorem ends_sweepAll {after : AfterSweep} {total : SweepReport} (hs : s.Upright)
    (hes : es ⊆ s.registry.known) (hn : es.Nodup)
    (hk : ∀ s', s.Swept now es s' →
      Step.Ends now Q (after.continue now s' (total.merge (s.dueTotal now es)))) :
    Step.Ends now Q (sweepAll now after (after.continue now) s total es) := by
  induction es generalizing s total with
  | nil => exact hk s (.nil s now)
  | cons k es ih =>
    rw [List.nodup_cons] at hn
    have hmem : k ∈ s.registry.known := hes List.mem_cons_self
    have hone : [k] ⊆ s.registry.known := by simpa using hmem
    refine ends_beginSweep (hs.live hmem) k.1 ⟨es, total, after⟩ fun s₁ hpruned => ?_
    have h₁ := hpruned.swept hs hmem (s.dueReport now k.2)
    show Step.Ends now Q (sweepAll now after (after.continue now)
      (endSweep s₁ ⟨k.1, k.2, now, s.dueReport now k.2⟩) (total.merge (s.dueReport now k.2)) es)
    generalize endSweep s₁ _ = s' at h₁ ⊢
    have hne : ∀ k' ∈ es, k' ∉ [k] := fun k' hk' heq => hn.1 (List.mem_singleton.mp heq ▸ hk')
    have hrest : ∀ k' ∈ es, k' ∈ s.registry.known := fun k' hk' => hes (List.mem_cons_of_mem _ hk')
    refine ih (h₁.upright hs hone) (fun k' hk' => ?_) hn.2 fun s'' h'' => ?_
    · rw [h₁.known, List.mem_filter]
      exact ⟨hrest k' hk', by rw [decide_eq_true (hne k' hk'), Bool.true_or]⟩
    · have hsum : s'.dueTotal now es = s.dueTotal now es := by
        refine List.foldr_ext _ _ _ fun k' hk' r => ?_
        rw [(h₁.spares hs hone (hrest k' hk') (hne k' hk')).2.dueReport]
      rw [hsum, SweepReport.merge_assoc]
      exact hk s'' (h₁.cons h'' hs hes hn.1)

/-! ### A second sweep -/

theorem State.Swept.dueReport (h : s.Swept now es s') (hs : s.Live k.2) (hk : k ∈ es) :
    s'.dueReport now k.2 = {} := by
  have hslots := h.slotsOf hk
  have hslot : ∀ p ∈ s.kept now k.2, s'.slot? p.2 = s.aged? now p.2 := h.aged k hk
  have hfresh : ∀ p ∈ s.kept now k.2, s.isStale now p.2 = false := fun p hp => by
    obtain ⟨hmem, hstale, -⟩ := State.mem_kept.mp hp
    exact Bool.eq_false_iff.mpr fun htrue => hstale (List.mem_filter.mpr ⟨hmem, htrue⟩)
  have hreleased : (s'.slotsOf k.2).countP (fun p => s'.isOverdue now p.2) = 0 := by
    rw [hslots]
    refine List.countP_eq_zero.mpr fun p hp => ?_
    rw [isOverdue_aged (hslot p hp) h.settings]
    exact Bool.false_ne_true
  have hstale : s'.stale now k.2 = [] := by
    rw [State.stale, hslots]
    refine List.filter_eq_nil_iff.mpr fun p hp => ?_
    rw [isStale_aged (hslot p hp) h.settings, hfresh p hp]
    exact Bool.false_ne_true
  have hsurplus : s'.surplus now k.2 = [] := by
    have hlength := hs.length_kept now
    rw [State.surplus, hstale, hslots, State.policy, h.settings]
    rcases Nat.lt_or_ge s.policy.maxConnections (s.kept now k.2).length with hexcess | hexcess
    · -- too many are left: the sweep has closed everything it could
      have hall : s.surplus now k.2 = s.spare now k.2 := by
        rw [State.surplus, List.length_take] at hlength
        exact List.take_of_length_le (by omega)
      have hnone : s'.spare now k.2 = [] := by
        refine List.eq_nil_iff_forall_not_mem.mpr fun p hp => ?_
        obtain ⟨hmem, -, x, hx, hb⟩ := State.mem_spare.mp hp
        rw [hslots] at hmem
        rw [aged?_aged (hslot p hmem) h.settings] at hx
        obtain ⟨hold, -, hkept⟩ := State.mem_kept.mp hmem
        exact hkept (hall ▸ State.mem_spare.mpr ⟨hold, hfresh p hmem, x, hx, hb⟩)
      rw [hnone, List.take_nil]
    · have hzero : (s.kept now k.2).length - ([] : List (ContextId × Nat)).length -
          s.settings.retention.maxConnections = 0 := Nat.sub_eq_zero_of_le hexcess
      rw [hzero, List.take_zero]
  rw [State.dueReport, hreleased, hstale, hsurplus]
  rfl

theorem releaseExpired_of_not_overdue {l : List (ContextId × Nat)}
    (hl : ∀ p ∈ l, (∃ h, s.openHandle? p.1 p.2 = some h) ∧ s.isOverdue now p.2 = false) :
    releaseExpired s now l = (s, 0) := by
  induction l with
  | nil => rfl
  | cons p l ih =>
    obtain ⟨hopen, hdue⟩ := hl p List.mem_cons_self
    rw [releaseExpired, State.any_expired now hopen, hdue]
    exact ih fun p' hp' => hl p' (List.mem_cons_of_mem _ hp')

section pass
variable {w : Sweep} {rest : SweepRest} {cont : State → Sweep → Step}

theorem sweepIdle_of_not_stale {l : List (ContextId × Nat)}
    (hl : ∀ p ∈ l, (∃ x, s.slot? p.2 = some x) ∧ s.isStale w.start p.2 = false) :
    sweepIdle s w rest l cont = sweepSurplus s w rest (surplusCandidates s w.entry) cont := by
  induction l with
  | nil => rfl
  | cons p l ih =>
    obtain ⟨⟨x, hx⟩, hfresh⟩ := hl p List.mem_cons_self
    rw [sweepIdle_cons_of_not_stale (by rw [hfresh]; exact Bool.false_ne_true) hx]
    exact ih fun p' hp' => hl p' (List.mem_cons_of_mem _ hp')

theorem sweepSurplus_of_none {l : List (ContextId × Nat)}
    (hl : l.take ((s.slotsOf w.entry).length - s.policy.maxConnections) = []) :
    sweepSurplus s w rest l cont = cont s w := by
  rw [sweepSurplus]
  split
  · rfl
  · rename_i hsize
    have hpos : (s.slotsOf w.entry).length - s.policy.maxConnections ≠ 0 := fun hzero =>
      hsize (Nat.le_of_sub_eq_zero hzero)
    obtain rfl : l = [] := (List.take_eq_nil_iff.mp hl).resolve_left hpos
    rfl

/-- A sweep that has done nothing leaves nothing behind, unless its entry is vacant. -/
theorem endSweep_of_nothing_done (hw : w.report = {})
    (hvacant : (s.registry.entry w.entry).isVacant = false) : endSweep s w = s := by
  have hforget : s.registry.isForgettable w.identity w.entry = false := by
    rw [Registry.isForgettable, hvacant, Bool.and_false]
  have hbook : (s.count fun l => { l with
      evictedReleased := l.evictedReleased + w.report.released
      evictedClosed := l.evictedClosed + w.report.closed }) = s := by
    rw [hw]
    rfl
  rw [endSweep, hbook, if_pos hw, hforget]
  rfl

end pass

/-- **A sweep of identities for which nothing is due, and which have something left, does
nothing.** -/
theorem sweepAll_of_nothing_due {after : AfterSweep} {cont : State → SweepReport → Step}
    (hes : ∀ k ∈ es, s.Live k.2 ∧ s.dueReport now k.2 = {} ∧
      (s.registry.entry k.2).isVacant = false) (total : SweepReport) :
    sweepAll now after cont s total es = cont s total := by
  induction es with
  | nil => rfl
  | cons k es ih =>
    obtain ⟨hlive, hdue, hused⟩ := hes k List.mem_cons_self
    have hreleased : (s.slotsOf k.2).countP (fun p => s.isOverdue now p.2) = 0 :=
      congrArg SweepReport.released hdue
    have hstale : s.stale now k.2 = [] := List.length_eq_zero_iff.mp
      (congrArg SweepReport.closedIdle hdue)
    have hsurplus : s.surplus now k.2 = [] := List.length_eq_zero_iff.mp
      (congrArg SweepReport.closedSurplus hdue)
    have hnone : releaseExpired s now (s.slotsOf k.2) = (s, 0) :=
      releaseExpired_of_not_overdue fun p hp => ⟨hlive.opened p hp, by
        simpa using List.countP_eq_zero.mp hreleased p hp⟩
    have haged : s.Aged now k.2 s := by
      have h := hlive.aged now
      rwa [hnone] at h
    have hcandidates : surplusCandidates s k.2 = s.spare now k.2 :=
      haged.surplusCandidates hlive (hstale ▸ State.Culled.refl s k.2)
    rw [State.surplus, hstale, List.length_nil, Nat.sub_zero, ← hcandidates] at hsurplus
    have hfresh : ∀ p ∈ s.slotsOf k.2, (∃ x, s.slot? p.2 = some x) ∧ s.isStale now p.2 = false := by
      intro p hp
      obtain ⟨x, -, hx, -⟩ := hlive.slot? hp
      exact ⟨⟨x, hx⟩, by simpa using List.filter_eq_nil_iff.mp hstale p hp⟩
    rw [sweepAll, beginSweep, hnone]
    dsimp only
    rw [sweepIdle_of_not_stale hfresh, sweepSurplus_of_none hsurplus,
      endSweep_of_nothing_done rfl hused]
    exact ih fun k' hk' => hes k' (List.mem_cons_of_mem _ hk')

end ConnectionLeasing.Affine

import ConnectionLeasing.Proofs.Affine.Covering
import ConnectionLeasing.Proofs.Affine.Due
import ConnectionLeasing.Proofs.Affine.Exchanges

/-!
# The passes of a sweep

The three passes over the slots of one identity, whatever the disconnects are answered, as long as
nothing comes between. They take back and close exactly what was due when the sweep began, with one
disconnect for each slot that is closed.

* `slot?_releaseExpired`, `snd_releaseExpired`: the pass over lent slots.
* `concludes_sweepIdle`, `concludes_sweepSurplus`: the passes that close slots.
* `concludes_beginSweep`: the three passes together.
-/

namespace ConnectionLeasing.Affine

section passes
variable {s s' : State} {now e : Nat}

/-! ### The pass over lent slots -/

theorem State.any_expired (now : Nat) {k : ContextId × Nat}
    (hk : ∃ h, s.openHandle? k.1 k.2 = some h) :
    ((s.slot? k.2).any fun x => (x.openFor k.1).isSome && x.borrowed &&
      s.policy.borrowExpired x.borrowTime now) = s.isOverdue now k.2 := by
  obtain ⟨h, hh⟩ := hk
  obtain ⟨x, hx, hopen⟩ := Option.bind_eq_some_iff.mp hh
  rw [State.isOverdue, hx, Option.any_some, Option.any_some, hopen]
  rfl

theorem releaseExpired_eq (s : State) (now : Nat) (l : List (ContextId × Nat)) :
    ∃ slots, (releaseExpired s now l).1 = { s with slots } := by
  induction l generalizing s with
  | nil => exact ⟨s.slots, rfl⟩
  | cons k l ih =>
    rw [releaseExpired]
    split
    · exact ih (s.mapSlot k.2 (·.markIdle now))
    · exact ih s

theorem slot?_releaseExpired (now : Nat) {l : List (ContextId × Nat)}
    (hl : ∀ k ∈ l, ∃ h, s.openHandle? k.1 k.2 = some h) (hn : (l.map (·.2)).Nodup) (id : Nat) :
    (releaseExpired s now l).1.slot? id =
      if id ∈ l.map (·.2) then s.aged? now id else s.slot? id := by
  induction l generalizing s with
  | nil => rfl
  | cons k l ih =>
    rw [List.map_cons, List.nodup_cons] at hn
    have hk := State.any_expired now (hl k List.mem_cons_self)
    have hrest : ∀ k' ∈ l, ∃ h, s.openHandle? k'.1 k'.2 = some h := fun k' hk' =>
      hl k' (List.mem_cons_of_mem _ hk')
    rw [releaseExpired, hk, List.map_cons]
    split
    · rename_i hdue
      refine (ih (fun k' hk' => ?_) hn.2).trans ?_
      · rw [State.openHandle?_markIdle]
        exact hrest k' hk'
      by_cases heq : id = k.2
      · subst heq
        rw [if_neg hn.1, if_pos List.mem_cons_self, State.slot?_mapSlot_self, State.aged?]
        simp only [hdue, if_true]
      · have hslot : (s.mapSlot k.2 (·.markIdle now)).slot? id = s.slot? id :=
          State.slot?_mapSlot_of_ne s _ (Ne.symm heq)
        rw [hslot, State.aged?_congr hslot rfl]
        simp only [List.mem_cons, heq, false_or]
    · rename_i hdue
      refine (ih hrest hn.2).trans ?_
      by_cases heq : id = k.2
      · subst heq
        rw [if_neg hn.1, if_pos List.mem_cons_self, State.aged?]
        cases s.slot? k.2 <;> simp [hdue]
      · simp only [List.mem_cons, heq, false_or]

theorem snd_releaseExpired (now : Nat) {l : List (ContextId × Nat)}
    (hl : ∀ k ∈ l, ∃ h, s.openHandle? k.1 k.2 = some h) (hn : (l.map (·.2)).Nodup) :
    (releaseExpired s now l).2 = l.countP fun k => s.isOverdue now k.2 := by
  induction l generalizing s with
  | nil => rfl
  | cons k l ih =>
    rw [List.map_cons, List.nodup_cons] at hn
    have hk := State.any_expired now (hl k List.mem_cons_self)
    have hrest : ∀ k' ∈ l, ∃ h, s.openHandle? k'.1 k'.2 = some h := fun k' hk' =>
      hl k' (List.mem_cons_of_mem _ hk')
    rw [releaseExpired, hk, List.countP_cons]
    split
    · refine congrArg (· + 1)
        ((ih (fun k' hk' => ?_) hn.2).trans (List.countP_congr fun k' hk' => ?_))
      · rw [State.openHandle?_markIdle]
        exact hrest k' hk'
      · have hne : k.2 ≠ k'.2 := fun heq => hn.1 (heq ▸ List.mem_map_of_mem hk')
        have hslot : (s.mapSlot k.2 (·.markIdle now)).slot? k'.2 = s.slot? k'.2 :=
          State.slot?_mapSlot_of_ne s _ hne
        rw [State.isOverdue_congr hslot rfl]
    · exact ih hrest hn.2

/-! ### Slots that are closed -/

/-- Some slots of an entry have been closed, and nothing else has happened to slots. -/
structure State.Culled (s : State) (e : Nat) (gone : List (ContextId × Nat)) (s' : State) :
    Prop where
  settings : s'.settings = s.settings
  known : s'.registry.known = s.registry.known
  made : s'.registry.entries.length = s.registry.entries.length
  entry : s'.registry.entry e =
    { s.registry.entry e with slots := (s.slotsOf e).filter fun k => k ∉ gone }
  others : ∀ o, o ≠ e → s'.registry.entry o = s.registry.entry o
  slot? : ∀ id, id ∉ gone.map (·.2) → s'.slot? id = s.slot? id
  closed : ∀ k ∈ gone, s'.handle? k.2 = none

theorem State.Culled.slotsOf {gone : List (ContextId × Nat)} (h : s.Culled e gone s') :
    s'.slotsOf e = (s.slotsOf e).filter fun k => k ∉ gone := by
  rw [State.slotsOf, h.entry]

theorem State.Culled.refl (s : State) (e : Nat) : s.Culled e [] s where
  settings := rfl
  known := rfl
  made := rfl
  entry := by
    have hall : ((s.slotsOf e).filter fun k => k ∉ ([] : List (ContextId × Nat))) = s.slotsOf e :=
      List.filter_eq_self.mpr fun k _ => by simp
    rw [hall]
    rfl
  others _ _ := rfl
  slot? _ _ := rfl
  closed k hk := absurd hk List.not_mem_nil

theorem State.Culled.trans {s'' : State} {gone gone' : List (ContextId × Nat)}
    (h : s.Culled e gone s') (h' : s'.Culled e gone' s'') : s.Culled e (gone ++ gone') s'' where
  settings := h'.settings.trans h.settings
  known := h'.known.trans h.known
  made := h'.made.trans h.made
  entry := by
    rw [h'.entry, h.entry, h.slotsOf, List.filter_filter]
    simp only [List.mem_append, not_or, Bool.decide_and, Bool.and_comm]
  others o ho := (h'.others o ho).trans (h.others o ho)
  slot? id hid := by
    rw [List.map_append, List.mem_append, not_or] at hid
    exact (h'.slot? id hid.2).trans (h.slot? id hid.1)
  closed k hk := by
    by_cases hgone : k.2 ∈ gone'.map (·.2)
    · obtain ⟨k', hk', heq⟩ := List.mem_map.mp hgone
      exact heq ▸ h'.closed k' hk'
    · rw [State.handle?, h'.slot? k.2 hgone]
      rcases List.mem_append.mp hk with hk | hk
      · exact h.closed k hk
      · exact absurd (List.mem_map_of_mem hk) hgone

theorem State.Live.culled_close (hs : s.Live e) {c : Closing} (he : c.entry = e)
    (hc : (c.owner, c.slot) ∈ s.slotsOf e) (failure : Option LeaseError) :
    s.Culled e [(c.owner, c.slot)] ((s.beginClosing c).finishClosing c failure) := by
  subst he
  have hregistered : (s.registry.entry c.entry).slot? c.owner = some c.slot :=
    (Keyed.get?_eq_some_iff hs.keys c.owner c.slot).mpr hc
  have hregistry := State.registry_finishClosing (s := s.beginClosing c) c failure
  refine ⟨by cases failure <;> rfl, ?_, ?_, ?_, fun o ho => ?_, fun id hid => ?_, fun k hk => ?_⟩
  · rw [hregistry]
    rfl
  · rw [hregistry]
    exact Registry.length_mapEntry ..
  · rw [hregistry, Registry.entry_detach, if_pos rfl]
    refine (if_pos hregistered).trans ?_
    refine congrArg (fun slots => { s.registry.entry c.entry with slots })
      (List.filter_congr fun k hk => ?_)
    refine decide_eq_decide.mpr (not_congr ⟨fun heq => List.mem_singleton.mpr ?_, fun hmem => ?_⟩)
    swap
    · rw [List.mem_singleton.mp hmem]
    have hsame : Keyed.get? (s.slotsOf c.entry) k.1 = some k.2 :=
      (Keyed.get?_eq_some_iff hs.keys k.1 k.2).mpr hk
    rw [heq] at hsame
    exact Prod.ext heq (Option.some.inj (hsame.symm.trans hregistered))
  · rw [hregistry, Registry.entry_detach, if_neg (Ne.symm ho)]
    rfl
  · have hne : c.slot ≠ id := fun heq => hid (by simp [heq])
    rw [State.slot?_finishClosing, State.slot?_mapSlot_of_ne _ _ hne]
    exact State.slot?_mapSlot_of_ne _ _ hne
  · rw [List.mem_singleton] at hk
    rw [hk, State.handle?_finishClosing, State.handle?_beginClosing, if_pos rfl]

theorem State.Culled.slot?_of_mem {gone : List (ContextId × Nat)} (h : s.Culled e gone s')
    (hs : s.Live e) (hgone : gone ⊆ s.slotsOf e) {k : ContextId × Nat} (hk : k ∈ s'.slotsOf e) :
    s'.slot? k.2 = s.slot? k.2 := by
  rw [h.slotsOf, List.mem_filter, decide_eq_true_eq] at hk
  refine h.slot? k.2 fun hmem => ?_
  obtain ⟨k', hk', heq⟩ := List.mem_map.mp hmem
  exact hk.2 (hs.inj (hgone hk') hk.1 heq ▸ hk')

theorem State.Culled.live {gone : List (ContextId × Nat)} (h : s.Culled e gone s')
    (hs : s.Live e) (hgone : gone ⊆ s.slotsOf e) : s'.Live e := by
  have hsub : (s'.slotsOf e).Sublist (s.slotsOf e) := h.slotsOf ▸ List.filter_sublist
  refine ⟨hs.keys.sublist (hsub.map _), hs.ids.sublist (hsub.map _), fun k hk => ?_⟩
  rw [State.openHandle?, h.slot?_of_mem hs hgone hk]
  exact hs.opened k (hsub.subset hk)

theorem State.Culled.size {gone : List (ContextId × Nat)} (h : s.Culled e gone s') (hs : s.Live e)
    (hgone : gone ⊆ s.slotsOf e) (hn : gone.Nodup) :
    gone.length + (s'.slotsOf e).length = (s.slotsOf e).length := by
  rw [h.slotsOf]
  exact length_add_length_filter hn hs.nodup hgone

/-- Some slots of an entry have been closed, each with a disconnect of its handle. -/
structure State.Closes (s : State) (e : Nat) (gone : List (ContextId × Nat)) (seen : List Exchange)
    (s' : State) : Prop extends s.Culled e gone s' where
  calls : seen.map (·.call.disconnected?) = gone.map fun k => s.handle? k.2
  ledger : s'.ledger =
    { s.ledger with disconnectFailures := s.ledger.disconnectFailures + Exchange.failures seen }

theorem State.Closes.refl (s : State) (e : Nat) : s.Closes e [] [] s :=
  { State.Culled.refl s e with calls := rfl, ledger := rfl }

theorem State.Closes.trans {s'' : State} {gone gone' : List (ContextId × Nat)}
    {seen seen' : List Exchange} (h : s.Closes e gone seen s') (h' : s'.Closes e gone' seen' s'')
    (hs : s.Live e) (hgone : gone ⊆ s.slotsOf e) (hgone' : gone' ⊆ s'.slotsOf e) :
    s.Closes e (gone ++ gone') (seen ++ seen') s'' where
  toCulled := h.toCulled.trans h'.toCulled
  calls := by
    rw [List.map_append, List.map_append, h.calls, h'.calls]
    refine congrArg (_ ++ ·) (List.map_congr_left fun k hk => ?_)
    rw [State.handle?, h.slot?_of_mem hs hgone (hgone' hk), State.handle?]
  ledger := by
    rw [h'.ledger, h.ledger, Exchange.failures_append, Nat.add_assoc]

theorem State.Live.closes (hs : s.Live e) {c : Closing} (he : c.entry = e)
    (hc : (c.owner, c.slot) ∈ s.slotsOf e) (hh : s.openHandle? c.owner c.slot = some c.handle)
    (failure : Option LeaseError) : s.Closes e [(c.owner, c.slot)]
      [⟨.disconnect c.handle, failure⟩] ((s.beginClosing c).finishClosing c failure) where
  toCulled := hs.culled_close he hc failure
  calls := by
    rw [List.map_singleton, List.map_singleton, (State.openHandle?_eq_some hh).2]
    rfl
  ledger := by cases failure <;> rfl

/-! ### The passes that close slots -/

/-- The sweep of an identity once it has done more. -/
def Sweep.add (w : Sweep) (r : SweepReport) : Sweep := { w with report := w.report.merge r }

theorem Sweep.add_add (w : Sweep) (r r' : SweepReport) : (w.add r).add r' = w.add (r.merge r') := by
  rw [Sweep.add, Sweep.add, Sweep.add, SweepReport.merge_assoc]

theorem State.Culled.others_mem {k : ContextId × Nat} (h : s.Culled e [k] s') (hs : s.Live e)
    (hk : k ∈ s.slotsOf e) {k' : ContextId × Nat} (hk' : k' ∈ s.slotsOf e) (hne : k' ≠ k) :
    k' ∈ s'.slotsOf e ∧ s'.slot? k'.2 = s.slot? k'.2 := by
  have hmem : k' ∈ s'.slotsOf e := by
    rw [h.slotsOf, List.mem_filter]
    exact ⟨hk', by simpa using hne⟩
  exact ⟨hmem, h.slot?_of_mem hs (by simpa using hk) hmem⟩

section head
variable {w : Sweep} {rest : SweepRest} {cont : State → Sweep → Step} {k : ContextId × Nat}
  {x : Slot}

theorem State.firstOpen?_cons_of_pos {p : Slot → Bool} {h : Handle} (hp : p x = true)
    (hx : s.slot? k.2 = some x) (hopen : x.openFor k.1 = some h) (i : Identity)
    (l : List (ContextId × Nat)) :
    s.firstOpen? p i e (k :: l) = some (⟨i, e, k.2, k.1, h⟩, l) := by
  rw [firstOpen?, hx, Option.bind_some, if_pos hp, hopen]

theorem State.firstOpen?_cons_of_neg {p : Slot → Bool} (hp : ¬ p x = true)
    (hx : s.slot? k.2 = some x) (i : Identity) (l : List (ContextId × Nat)) :
    s.firstOpen? p i e (k :: l) = s.firstOpen? p i e l := by
  rw [firstOpen?, hx, Option.bind_some, if_neg hp]

theorem sweepIdle_cons_of_stale (hstale : s.isStale w.start k.2) {h : Handle}
    (hx : s.slot? k.2 = some x) (hopen : x.openFor k.1 = some h) (l : List (ContextId × Nat)) :
    sweepIdle s w rest (k :: l) cont =
      s.close ⟨w.identity, w.entry, k.2, k.1, h⟩ (.sweptIdle w l rest) := by
  rw [State.isStale, hx, Option.any_some] at hstale
  rw [sweepIdle, State.firstOpen?_cons_of_pos hstale hx hopen]

theorem sweepIdle_cons_of_not_stale (hfresh : ¬ s.isStale w.start k.2) (hx : s.slot? k.2 = some x)
    (l : List (ContextId × Nat)) :
    sweepIdle s w rest (k :: l) cont = sweepIdle s w rest l cont := by
  rw [State.isStale, hx, Option.any_some] at hfresh
  rw [sweepIdle, State.firstOpen?_cons_of_neg hfresh hx, sweepIdle]

end head

variable {T : Nat → Prop} {Q : List Exchange → State → Result → Prop} {w : Sweep}
  {rest : SweepRest}

theorem concludes_sweepSurplus {l : List (ContextId × Nat)} (hs : s.Live w.entry)
    (hl : ∀ k ∈ l, k ∈ s.slotsOf w.entry ∧ s.isLent k.2 = false) (hn : l.Nodup) {n : Nat}
    (hexcess : (s.slotsOf w.entry).length - s.policy.maxConnections = n) (hnow : T now)
    (hk : ∀ t, T t → ∀ seen s', s.Closes w.entry (l.take n) seen s' →
      Step.Concludes T (fun more => Q (seen ++ more))
        (rest.continue t s' (w.add ⟨0, 0, (l.take n).length⟩))) :
    Step.Concludes T Q (sweepSurplus s w rest l (rest.continue now)) := by
  induction l generalizing s w n now Q with
  | nil =>
    rw [List.take_nil] at hk
    have hend : Step.Concludes T Q (rest.continue now s w) := hk now hnow [] s (.refl s w.entry)
    rw [sweepSurplus]
    split <;> exact hend
  | cons k l ih =>
    rw [List.nodup_cons] at hn
    rw [sweepSurplus]
    split
    · rename_i hsize
      obtain rfl : n = 0 := hexcess.symm.trans (Nat.sub_eq_zero_of_le hsize)
      exact hk now hnow [] s (.refl s w.entry)
    · rename_i hsize
      obtain ⟨hmem, hidle⟩ := hl k List.mem_cons_self
      obtain ⟨m, rfl⟩ : ∃ m, n = m + 1 := Nat.exists_eq_succ_of_ne_zero fun hzero => hsize
        (Nat.le_of_sub_eq_zero (hexcess.trans hzero))
      have hothers : ∀ {x s₁}, s.Closes w.entry [k] [x] s₁ → ∀ k' ∈ l,
          k' ∈ s₁.slotsOf w.entry ∧ s₁.slot? k'.2 = s.slot? k'.2 := fun hcloses k' hk' =>
        hcloses.others_mem hs hmem (hl k' (List.mem_cons_of_mem _ hk')).1
          fun heq => hn.1 (heq ▸ hk')
      -- once the first slot of the list is closed, the pass goes on with the others
      have hnext : ∀ t, T t → ∀ x s₁, s.Closes w.entry [k] [x] s₁ →
          Step.Concludes T (fun more => Q (x :: more))
            (sweepSurplus s₁ (w.add ⟨0, 0, 1⟩) rest l (rest.continue t)) := by
        intro t ht x s₁ hcloses
        have hsub : [k] ⊆ s.slotsOf w.entry := by simpa using hmem
        have hsmaller := hcloses.size hs hsub (List.nodup_singleton k)
        refine ih (w := w.add ⟨0, 0, 1⟩) (n := m) (hcloses.live hs hsub) (fun k' hk' => ?_) hn.2
          ?_ ht fun t' ht' seen s' hcloses' => ?_
        · obtain ⟨hstays, hslot⟩ := hothers hcloses k' hk'
          refine ⟨hstays, ?_⟩
          rw [State.isLent, hslot]
          exact (hl k' (List.mem_cons_of_mem _ hk')).2
        · have hpolicy : s₁.policy = s.policy := by
            rw [State.policy, hcloses.settings, State.policy]
          rw [List.length_singleton] at hsmaller
          rw [hpolicy]
          show (s₁.slotsOf w.entry).length - s.policy.maxConnections = m
          omega
        · have hrest : l.take m ⊆ s₁.slotsOf w.entry := fun k' hk' =>
            (hothers hcloses k' (List.mem_of_mem_take hk')).1
          have hend := hk t' ht' _ s' (hcloses.trans hcloses' hs hsub hrest)
          rw [List.take_succ_cons, List.length_cons, Nat.add_comm] at hend
          rw [Sweep.add_add]
          exact hend
      obtain ⟨x, h, hx, hopen⟩ := hs.slot? hmem
      have hborrowed : x.borrowed = false := by simpa [State.isLent, hx] using hidle
      rw [State.firstOpen?_cons_of_pos (by rw [hborrowed]; rfl) hx hopen]
      exact .paused fun t ht failure => hnext t ht _ _
        (hs.closes (c := ⟨w.identity, w.entry, k.2, k.1, h⟩) rfl hmem
          (Option.bind_eq_some_iff.mpr ⟨x, hx, hopen⟩) failure)

theorem concludes_sweepIdle {l : List (ContextId × Nat)} (hs : s.Live w.entry)
    (hl : ∀ k ∈ l, k ∈ s.slotsOf w.entry) (hn : l.Nodup) {gone : List (ContextId × Nat)}
    (hgone : (l.filter fun k => s.isStale w.start k.2) = gone) (hnow : T now)
    (hk : ∀ t, T t → ∀ seen s', s.Closes w.entry gone seen s' →
      Step.Concludes T (fun more => Q (seen ++ more)) (sweepSurplus s'
        (w.add ⟨0, gone.length, 0⟩) rest (surplusCandidates s' w.entry) (rest.continue t))) :
    Step.Concludes T Q (sweepIdle s w rest l (rest.continue now)) := by
  induction l generalizing s w gone now Q with
  | nil =>
    subst hgone
    exact hk now hnow [] s (.refl s w.entry)
  | cons k l ih =>
    rw [List.nodup_cons] at hn
    have hmem := hl k List.mem_cons_self
    have hrest : ∀ k' ∈ l, k' ∈ s.slotsOf w.entry := fun k' hk' =>
      hl k' (List.mem_cons_of_mem _ hk')
    obtain ⟨x, h, hx, hopen⟩ := hs.slot? hmem
    rw [List.filter_cons] at hgone
    split at hgone
    · rename_i hstale
      subst hgone
      -- once the first slot of the list is closed, the pass goes on with the others
      have hnext : ∀ t, T t → ∀ x s₁, s.Closes w.entry [k] [x] s₁ →
          Step.Concludes T (fun more => Q (x :: more))
            (sweepIdle s₁ (w.add ⟨0, 1, 0⟩) rest l (rest.continue t)) := by
        intro t ht x s₁ hcloses
        have hsub : [k] ⊆ s.slotsOf w.entry := by simpa using hmem
        have hothers := fun k' hk' => hcloses.others_mem hs hmem (hrest k' hk') fun heq =>
          hn.1 (heq ▸ hk')
        refine ih (w := w.add ⟨0, 1, 0⟩) (hcloses.live hs hsub) (fun k' hk' => (hothers k' hk').1)
          hn.2 (List.filter_congr fun k' hk' => State.isStale_congr (hothers k' hk').2
            hcloses.settings) ht fun t' ht' seen s' hcloses' => ?_
        have hleft : (l.filter fun k => s.isStale w.start k.2) ⊆ s₁.slotsOf w.entry := fun k' hk' =>
          (hothers k' (List.mem_of_mem_filter hk')).1
        have hend := hk t' ht' _ s' (hcloses.trans hcloses' hs hsub hleft)
        rw [List.length_cons, Nat.add_comm] at hend
        rw [Sweep.add_add]
        exact hend
      rw [sweepIdle_cons_of_stale hstale hx hopen]
      exact .paused fun t ht failure => hnext t ht _ _
        (hs.closes (c := ⟨w.identity, w.entry, k.2, k.1, h⟩) rfl hmem
          (Option.bind_eq_some_iff.mpr ⟨x, hx, hopen⟩) failure)
    · rename_i hfresh
      rw [sweepIdle_cons_of_not_stale hfresh hx]
      exact ih hs hrest hn.2 hgone hnow hk

/-! ### The three passes together -/

/-- An entry once its first pass is through. -/
structure State.Aged (s : State) (now e : Nat) (s' : State) : Prop where
  settings : s'.settings = s.settings
  registry : s'.registry = s.registry
  ledger : s'.ledger = s.ledger
  slot? : ∀ k ∈ s.slotsOf e, s'.slot? k.2 = s.aged? now k.2
  others : ∀ id, id ∉ (s.slotsOf e).map (·.2) → s'.slot? id = s.slot? id

theorem State.Live.aged (hs : s.Live e) (now : Nat) :
    s.Aged now e (releaseExpired s now (s.slotsOf e)).1 := by
  obtain ⟨slots, hslots⟩ := releaseExpired_eq s now (s.slotsOf e)
  have hslot := slot?_releaseExpired now hs.opened hs.ids
  refine ⟨by rw [hslots], by rw [hslots], by rw [hslots], fun k hk => ?_, fun id hid => ?_⟩
  · rw [hslot, if_pos (List.mem_map_of_mem hk)]
  · rw [hslot, if_neg hid]

section aged
variable {s₁ s₂ : State} (h : s.Aged now e s₁)
include h

theorem State.Aged.slotsOf : s₁.slotsOf e = s.slotsOf e := by
  rw [State.slotsOf, h.registry, State.slotsOf]

theorem State.Aged.openHandle? {k : ContextId × Nat} (hk : k ∈ s.slotsOf e) :
    s₁.openHandle? k.1 k.2 = s.openHandle? k.1 k.2 := by
  rw [State.openHandle?, h.slot? k hk]
  exact bind_aged? (fun _ => rfl) k.2

theorem State.Aged.isStale {k : ContextId × Nat} (hk : k ∈ s.slotsOf e) :
    s₁.isStale now k.2 = s.isStale now k.2 :=
  isStale_aged (h.slot? k hk) h.settings

theorem State.Aged.live (hs : s.Live e) : s₁.Live e := by
  refine ⟨h.slotsOf ▸ hs.keys, h.slotsOf ▸ hs.ids, fun k hk => ?_⟩
  rw [h.slotsOf] at hk
  rw [h.openHandle? hk]
  exact hs.opened k hk

theorem State.Aged.left (hs : s.Live e) {gone : List (ContextId × Nat)}
    (h₂ : s₁.Culled e gone s₂) (hgone : gone ⊆ s.slotsOf e) {k : ContextId × Nat}
    (hk : k ∈ s.slotsOf e) (hleft : k ∉ gone) :
    k ∈ s₂.slotsOf e ∧ s₂.slot? k.2 = s.aged? now k.2 := by
  have hmem : k ∈ s₂.slotsOf e := by
    rw [h₂.slotsOf, h.slotsOf, List.mem_filter]
    exact ⟨hk, by simpa using hleft⟩
  exact ⟨hmem, (h₂.slot?_of_mem (h.live hs) (h.slotsOf ▸ hgone) hmem).trans (h.slot? k hk)⟩

/-- The last pass goes through the slots that were spare when the sweep began. -/
theorem State.Aged.surplusCandidates (hs : s.Live e) (h₂ : s₁.Culled e (s.stale now e) s₂) :
    surplusCandidates s₂ e = s.spare now e := by
  have hgone : s.stale now e ⊆ s.slotsOf e := List.filter_sublist.subset
  rw [Affine.surplusCandidates, spare, h₂.slotsOf, h.slotsOf, List.filterMap_filter]
  refine congrArg (fun l : List (Nat × ContextId × Nat) =>
    (l.mergeSort fun a b => decide (a.1 ≤ b.1)).map (·.2)) (List.filterMap_congr fun k hk => ?_)
  rw [spare?]
  by_cases hstale : s.isStale now k.2 = true
  · have hmem : k ∈ s.stale now e := List.mem_filter.mpr ⟨hk, hstale⟩
    simp [hmem, hstale]
  · have hmem : k ∉ s.stale now e := fun hk => hstale (List.mem_filter.mp hk).2
    obtain ⟨hleft, hslot⟩ := h.left hs h₂ hgone hk hmem
    obtain ⟨x, y, hx, hopen⟩ := (h₂.live (h.live hs) (h.slotsOf ▸ hgone)).slot? hleft
    rw [hslot] at hx ⊢
    simp [hmem, hstale, hx, hopen]

end aged

/-- The sweep of an entry has taken back what was overdue, and closed what was stale and what was
too many. -/
def State.Pruned (s : State) (now e : Nat) (s' : State) : Prop :=
  ∃ s₁, s.Aged now e s₁ ∧ s₁.Culled e (s.stale now e ++ s.surplus now e) s'

/-- The same with the disconnects that this took. -/
def State.Prunes (s : State) (now e : Nat) (seen : List Exchange) (s' : State) : Prop :=
  ∃ s₁, s.Aged now e s₁ ∧ s₁.Closes e (s.stale now e ++ s.surplus now e) seen s'

theorem State.Prunes.pruned {seen : List Exchange} (h : s.Prunes now e seen s') :
    s.Pruned now e s' := by
  obtain ⟨s₁, haged, hcloses⟩ := h
  exact ⟨s₁, haged, hcloses.toCulled⟩

variable {T : Nat → Prop} {Q : List Exchange → State → Result → Prop}

/-- **The sweep of an entry closes exactly what was stale or too many when it began**, and reports
what was due. -/
theorem concludes_beginSweep (hs : s.Live e) (i : Identity) (rest : SweepRest) (hnow : T now)
    (hk : ∀ t, T t → ∀ seen s', s.Prunes now e seen s' →
      Step.Concludes T (fun more => Q (seen ++ more))
        (rest.continue t s' ⟨i, e, now, s.dueReport now e⟩)) :
    Step.Concludes T Q (sweepIdle (beginSweep s now i e).1 (beginSweep s now i e).2 rest
      ((beginSweep s now i e).1.slotsOf e) (rest.continue now)) := by
  have h₁ := hs.aged now
  have hlive₁ := h₁.live hs
  have hreleased := snd_releaseExpired now hs.opened hs.ids
  rw [beginSweep]
  dsimp only
  generalize (releaseExpired s now (s.slotsOf e)).1 = s₁ at h₁ hlive₁ hreleased ⊢
  rw [hreleased]
  have hstale : ((s₁.slotsOf e).filter fun k => s₁.isStale now k.2) = s.stale now e := by
    rw [h₁.slotsOf]
    exact List.filter_congr fun k hk => h₁.isStale hk
  refine concludes_sweepIdle hlive₁ (fun _ hk => hk) hlive₁.nodup hstale hnow
    fun t ht seen s₂ h₂ => ?_
  have hgone : s.stale now e ⊆ s.slotsOf e := List.filter_sublist.subset
  have hgone₁ : s.stale now e ⊆ s₁.slotsOf e := h₁.slotsOf ▸ hgone
  have hexcess : (s₂.slotsOf e).length - s₂.policy.maxConnections =
      (s.slotsOf e).length - (s.stale now e).length - s.policy.maxConnections := by
    have hsize := h₂.size hlive₁ hgone₁ (hs.nodup.filter _)
    rw [h₁.slotsOf] at hsize
    rw [State.policy, State.policy, h₂.settings, h₁.settings, ← hsize, Nat.add_sub_cancel_left]
  rw [h₁.surplusCandidates hs h₂.toCulled]
  have hspare : ∀ k ∈ s.spare now e, k ∈ s₂.slotsOf e ∧ s₂.isLent k.2 = false := fun k hk => by
    obtain ⟨hmem, hfresh, x, hx, hb⟩ := State.mem_spare.mp hk
    have hleft : k ∉ s.stale now e := fun hstale => by
      simpa [hfresh] using (List.mem_filter.mp hstale).2
    obtain ⟨hmem₂, hslot⟩ := h₁.left hs h₂.toCulled hgone hmem hleft
    refine ⟨hmem₂, ?_⟩
    rw [State.isLent, hslot, hx, Option.any_some, hb]
  refine concludes_sweepSurplus (h₂.live hlive₁ hgone₁) hspare (hs.nodup_spare now) hexcess ht
    fun t' ht' more s₃ h₃ => ?_
  have hsub : s.surplus now e ⊆ s₂.slotsOf e := fun k hk =>
    (hspare k (List.mem_of_mem_take hk)).1
  have hend := hk t' ht' _ s₃ ⟨s₁, h₁, h₂.trans h₃ hlive₁ hgone₁ hsub⟩
  rw [State.dueReport, State.surplus] at hend
  simpa [Sweep.add, SweepReport.merge] using hend

theorem ends_beginSweep {P : State → Result → Prop} (hs : s.Live e) (i : Identity)
    (rest : SweepRest) (hk : ∀ s', s.Pruned now e s' →
      Step.Ends now P (rest.continue now s' ⟨i, e, now, s.dueReport now e⟩)) :
    Step.Ends now P (sweepIdle (beginSweep s now i e).1 (beginSweep s now i e).2 rest
      ((beginSweep s now i e).1.slotsOf e) (rest.continue now)) := by
  refine Step.ends_iff.mpr (concludes_beginSweep hs i rest rfl fun t ht seen s' h => ?_)
  subst ht
  exact Step.ends_iff.mp (hk s' h.pruned)

end passes

end ConnectionLeasing.Affine

import ConnectionLeasing.Proofs.Affine.Forgetting

/-!
# The sweep of one identity

All that a sweep does to the slots of an entry, against the rules it goes by: which slots it takes
back, which it closes for having been idle too long, and which for the limit. The slots may have any
numbers and stand in any order, the limit and the timeouts may be any, and disconnects may fail and
take their time.

* `Prunes.left`, `Prunes.gone`: every slot as the three passes leave it.
* `surplus_before_spare`, `length_surplus`: which spare slots are closed, and how many.
* `concludes_sweepOf`: the three passes, booked.
* `sweep_keeps_to_rules`: all that a sweep does.
-/

namespace ConnectionLeasing.Affine

variable {s s' : State} {now e : Nat} {seen : List Exchange}

/-! ### What the passes leave -/

namespace State

section prunes
variable (h : s.Prunes now e seen s')
include h

theorem Prunes.known : s'.registry.known = s.registry.known := by
  obtain ⟨s₁, h₁, h₂⟩ := h
  rw [h₂.known, h₁.registry]

theorem Prunes.entry :
    s'.registry.entry e = { s.registry.entry e with slots := s.kept now e } := by
  obtain ⟨s₁, h₁, h₂⟩ := h
  rw [h₂.entry, h₁.slotsOf, h₁.registry]
  rfl

theorem Prunes.entry_of_ne {o : Nat} (ho : o ≠ e) :
    s'.registry.entry o = s.registry.entry o := by
  obtain ⟨s₁, h₁, h₂⟩ := h
  rw [h₂.others o ho, h₁.registry]

theorem Prunes.ledger : s'.ledger = { s.ledger with
    disconnectFailures := s.ledger.disconnectFailures + Exchange.failures seen } := by
  obtain ⟨s₁, h₁, h₂⟩ := h
  rw [h₂.ledger, h₁.ledger]

theorem Prunes.left (hs : s.Live e) {k : ContextId × Nat} (hk : k ∈ s.kept now e) :
    s'.slot? k.2 = s.aged? now k.2 := by
  obtain ⟨s₁, h₁, h₂⟩ := h
  obtain ⟨hmem, hstale, hsurplus⟩ := mem_kept.mp hk
  exact (h₁.left hs h₂.toCulled (s.gone_subset now e) hmem (by simp [hstale, hsurplus])).2

theorem Prunes.gone {k : ContextId × Nat} (hk : k ∈ s.stale now e ++ s.surplus now e) :
    s'.handle? k.2 = none := by
  obtain ⟨s₁, -, h₂⟩ := h
  exact h₂.closed k hk

theorem Prunes.elsewhere {id : Nat} (hid : id ∉ (s.slotsOf e).map (·.2)) :
    s'.slot? id = s.slot? id := by
  obtain ⟨s₁, h₁, h₂⟩ := h
  rw [h₂.slot? id fun hmem => hid (List.map_subset _ (s.gone_subset now e) hmem)]
  exact h₁.others id hid

theorem Prunes.calls : seen.map (·.call.disconnected?) =
    (s.stale now e ++ s.surplus now e).map fun k => s.handle? k.2 := by
  obtain ⟨s₁, h₁, h₂⟩ := h
  rw [h₂.calls]
  refine List.map_congr_left fun k hk => ?_
  rw [handle?, h₁.slot? k (s.gone_subset now e hk)]
  exact bind_aged? (fun _ => rfl) k.2

end prunes

/-! ### Which slots are due -/

theorem aged?_of_overdue {id : Nat} (h : s.isOverdue now id = true) :
    s.aged? now id = (s.slot? id).map (·.markIdle now) := by
  simp only [aged?, h, if_true]

theorem aged?_of_not_overdue {id : Nat} (h : s.isOverdue now id = false) :
    s.aged? now id = s.slot? id := by
  simp [aged?, h]

/-- A slot is stale if its idle time is over once the overdue ones were taken back. -/
theorem isStale_iff {id : Nat} : s.isStale now id = true ↔ ∃ x, s.aged? now id = some x ∧
    x.borrowed = false ∧ s.policy.idleTimeout.nanos < now - x.releaseTime := by
  rw [isStale, aged?]
  cases hx : s.slot? id with
  | none => simp
  | some x =>
    have hdue : s.isOverdue now id = (x.borrowed && s.policy.borrowExpired x.borrowTime now) := by
      rw [isOverdue, hx, Option.any_some]
    rw [Option.map_some, Option.any_some]
    split
    · rename_i hlate
      rw [hdue, Bool.and_eq_true] at hlate
      simp [Slot.markIdle, hlate.1]
    · have hidle : s.policy.idleExpired x.releaseTime now = true ↔
          s.policy.idleTimeout.nanos < now - x.releaseTime := decide_eq_true_iff
      simp [hidle]

theorem isOverdue_of_isStale {id : Nat} (h : s.isStale now id = true) :
    s.isOverdue now id = false := by
  obtain ⟨x, hx, hstale⟩ := (Option.any_eq_true _ _).mp h
  rw [Bool.and_eq_true, Bool.not_eq_true'] at hstale
  rw [isOverdue, hx, Option.any_some, hstale.1, Bool.false_and]

theorem isStale_of_isOverdue {id : Nat} (h : s.isOverdue now id = true) :
    s.isStale now id = false :=
  Bool.eq_false_iff.mpr fun hstale =>
    Bool.false_ne_true ((isOverdue_of_isStale hstale).symm.trans h)

theorem idle_of_gone {k : ContextId × Nat} (hk : k ∈ s.stale now e ++ s.surplus now e) :
    ∃ x, s.aged? now k.2 = some x ∧ x.borrowed = false := by
  rcases List.mem_append.mp hk with hk | hk
  · obtain ⟨x, hx, hb, -⟩ := isStale_iff.mp (List.mem_filter.mp hk).2
    exact ⟨x, hx, hb⟩
  · exact (mem_spare.mp (List.mem_of_mem_take hk)).2.2

theorem mem_kept_of_lent {k : ContextId × Nat} (hk : k ∈ s.slotsOf e)
    (hlent : s.isLent k.2 = true) (hdue : s.isOverdue now k.2 = false) : k ∈ s.kept now e := by
  refine List.mem_filter.mpr ⟨hk, decide_eq_true fun hgone => ?_⟩
  obtain ⟨x, hx, hb⟩ := idle_of_gone hgone
  rw [aged?_of_not_overdue hdue] at hx
  rw [isLent, hx, Option.any_some, hb] at hlent
  cases hlent

/-- The slots that are closed for the limit were released before all others that could have been. -/
theorem surplus_before_spare {k k' : ContextId × Nat} (hk : k ∈ s.surplus now e)
    (hk' : k' ∈ s.spare now e) (hleft : k' ∉ s.surplus now e) : ∃ x x', s.aged? now k.2 = some x ∧
      s.aged? now k'.2 = some x' ∧ x.releaseTime ≤ x'.releaseTime := by
  set sorted := ((s.slotsOf e).filterMap (s.spare? now)).mergeSort
    fun a b => decide (a.1 ≤ b.1) with hsorted
  set n := (s.slotsOf e).length - (s.stale now e).length - s.policy.maxConnections with hn
  have hspare : s.spare now e = sorted.map (·.2) := rfl
  have hsurplus : s.surplus now e = (sorted.take n).map (·.2) := by
    rw [surplus, hspare, ← List.map_take]
  have hpairwise : sorted.Pairwise fun a b => a.1 ≤ b.1 := by
    refine (List.pairwise_mergeSort (fun a b c hab hbc => ?_) (fun a b => ?_) _).imp
      fun hab => of_decide_eq_true hab
    · simp only [decide_eq_true_eq] at hab hbc ⊢
      omega
    · simp only [Bool.or_eq_true, decide_eq_true_eq]
      omega
  have htime : ∀ a ∈ sorted, ∃ x, s.aged? now a.2.2 = some x ∧ x.releaseTime = a.1 := by
    intro a ha
    rw [hsorted, List.mem_mergeSort, List.mem_filterMap] at ha
    obtain ⟨p, -, hp⟩ := ha
    obtain ⟨-, x, hx, -, rfl⟩ := spare?_eq_some.mp hp
    exact ⟨x, hx, rfl⟩
  rw [← List.take_append_drop n sorted, List.pairwise_append] at hpairwise
  rw [hspare, ← List.take_append_drop n sorted, List.map_append, ← hsurplus,
    List.mem_append] at hk'
  rw [hsurplus] at hk
  obtain ⟨a, ha, rfl⟩ := List.mem_map.mp hk
  obtain ⟨a', ha', rfl⟩ := List.mem_map.mp (hk'.resolve_left hleft)
  obtain ⟨x, hx, hreleased⟩ := htime a (List.mem_of_mem_take ha)
  obtain ⟨x', hx', hreleased'⟩ := htime a' (List.mem_of_mem_drop ha')
  refine ⟨x, x', hx, hx', ?_⟩
  rw [hreleased, hreleased']
  exact hpairwise.2.2 a ha a' ha'

/-- As many slots are closed for the limit as there are too many, or all that could be. -/
theorem length_surplus (s : State) (now e : Nat) : (s.surplus now e).length =
    min ((s.slotsOf e).length - (s.stale now e).length - s.policy.maxConnections)
      ((s.slotsOf e).countP (s.isSpare now e)) := by
  have hspare : (s.spare now e).length = (s.slotsOf e).countP (s.isSpare now e) := by
    rw [spare, List.length_map, List.length_mergeSort, List.length_filterMap_eq_countP]
    refine List.countP_congr fun k hk => ?_
    have hstale : k ∉ s.stale now e ↔ s.isStale now k.2 = false := by
      simp [stale, hk]
    rw [Option.isSome_iff_exists, isSpare, Bool.and_eq_true, decide_eq_true_eq, hstale,
      Option.any_eq_true]
    simp only [spare?_eq_some, Bool.not_eq_true']
    constructor
    · rintro ⟨_, hfresh, x, hx, hb, -⟩
      exact ⟨hfresh, x, hx, hb⟩
    · rintro ⟨hfresh, x, hx, hb⟩
      exact ⟨_, hfresh, x, hx, hb, rfl⟩
  rw [surplus, List.length_take, hspare]

end State

/-! ### The whole sweep -/

theorem ledger_endSweep (s : State) (w : Sweep) : (endSweep s w).ledger =
    { s.ledger with
      evictedReleased := s.ledger.evictedReleased + w.report.released
      evictedClosed := s.ledger.evictedClosed + w.report.closed } := by
  unfold endSweep
  dsimp only
  split <;> split <;> rfl

/-- It forgets no other identity, and this one only if its entry is vacant. -/
theorem entryId?_endSweep (s : State) {w : Sweep} {j : Identity}
    (hj : j ≠ w.identity ∨ (s.registry.entry w.entry).isVacant = false) :
    (endSweep s w).registry.entryId? j = s.registry.entryId? j := by
  rw [(endSweep_tables s w).2.2]
  split
  · rename_i hforget
    rw [Registry.isForgettable, Bool.and_eq_true] at hforget
    have hne : j ≠ w.identity := hj.resolve_right (by simp [hforget.2])
    exact Keyed.get?_erase_of_ne _ hne.symm
  · rfl

theorem concludes_sweepOf {T : Nat → Prop} (hs : s.Live e) (i : Identity) (hnow : T now) :
    (sweepOf s now [(i, e)]).Concludes T fun seen s' result => ∃ s₁, s.Prunes now e seen s₁ ∧
      s' = endSweep s₁ ⟨i, e, now, s.dueReport now e⟩ ∧
      result = .swept (s.dueReport now e) := by
  refine concludes_beginSweep hs i ⟨[], {}, .report⟩ hnow fun t _ seen s₁ h => .done ⟨s₁, ?_⟩
  rw [List.append_nil]
  exact ⟨h, rfl, by rw [SweepReport.empty_merge]⟩

/-- What the sweep of entry `e` of identity `i` makes of the slots, if it closes `idle` for their
idle time and then `surplus` for the limit. -/
structure State.Trims (s : State) (now : Nat) (i : Identity) (e : Nat)
    (idle surplus : List (ContextId × Nat)) (s' : State) : Prop where
  /-- What was lent for too long is idle from now on. -/
  taken : ∀ k ∈ s'.slotsOf e, s.isOverdue now k.2 = true →
    s'.slot? k.2 = (s.slot? k.2).map (·.markIdle now)
  /-- Everything else that stays is as it was. -/
  untouched : ∀ k ∈ s'.slotsOf e, s.isOverdue now k.2 = false → s'.slot? k.2 = s.slot? k.2
  /-- What is lent, and not for too long, stays. -/
  lent : ∀ k ∈ s.slotsOf e, s.isLent k.2 = true → s.isOverdue now k.2 = false → k ∈ s'.slotsOf e
  /-- The first to go are exactly the slots that are idle by now, for too long. -/
  stale : ∀ k, k ∈ idle ↔ k ∈ s.slotsOf e ∧ ∃ x, s.aged? now k.2 = some x ∧ x.borrowed = false ∧
    s.policy.idleTimeout.nanos < now - x.releaseTime
  /-- None of them was taken back just before. -/
  fresh : ∀ k ∈ idle, s.isOverdue now k.2 = false
  /-- The next to go are others that are idle by now, and no idle slot that stays was released
  before them. -/
  spare : ∀ k ∈ surplus, k ∈ s.slotsOf e ∧ ∃ x, s.aged? now k.2 = some x ∧ x.borrowed = false ∧
    ∀ k' ∈ s'.slotsOf e, ∀ x', s'.slot? k'.2 = some x' → x'.borrowed = false →
      x.releaseTime ≤ x'.releaseTime
  /-- They are as many as there are too many, or all that are idle by now. -/
  count : surplus.length = min ((s.slotsOf e).length - idle.length - s.policy.maxConnections)
    ((s.slotsOf e).countP fun k => k ∉ idle && (s.aged? now k.2).any fun x => !x.borrowed)
  once : (idle ++ surplus).Nodup
  /-- What is closed is registered no more, and has no handle. -/
  slotsOf : s'.slotsOf e = (s.slotsOf e).filter fun k => k ∉ idle ++ surplus
  closed : ∀ k ∈ idle ++ surplus, s'.handle? k.2 = none
  /-- Connections on their way and all other entries and slots are left alone, and the identity is
  only forgotten if nothing is left of it. -/
  pending : s'.registry.pendingIn e = s.registry.pendingIn e
  others : ∀ o, o ≠ e → s'.registry.entry o = s.registry.entry o
  identities : ∀ j, j ≠ i ∨ (s'.registry.entry e).isVacant = false →
    s'.registry.entryId? j = s.registry.entryId? j
  elsewhere : ∀ id, id ∉ (s.slotsOf e).map (·.2) → s'.slot? id = s.slot? id

theorem State.Prunes.trims (hs : s.Live e) (h : s.Prunes now e seen s') (i : Identity)
    (report : SweepReport) : s.Trims now i e (s.stale now e) (s.surplus now e)
      (endSweep s' ⟨i, e, now, report⟩) := by
  have hentry := entry_endSweep s' ⟨i, e, now, report⟩
  have hslot := slot?_endSweep s' ⟨i, e, now, report⟩
  have hothers : ∀ j, j ≠ i ∨ (s'.registry.entry e).isVacant = false →
      (endSweep s' ⟨i, e, now, report⟩).registry.entryId? j = s'.registry.entryId? j :=
    fun j hj => entryId?_endSweep s' hj
  generalize endSweep s' ⟨i, e, now, report⟩ = s'' at *
  have hslots : s''.slotsOf e = s.kept now e := by rw [State.slotsOf, hentry, h.entry]
  have hkept : ∀ k ∈ s''.slotsOf e, k ∈ s.kept now e := fun k hk => hslots ▸ hk
  have hleft : ∀ k ∈ s''.slotsOf e, s''.slot? k.2 = s.aged? now k.2 := fun k hk =>
    (hslot k.2).trans (h.left hs (hkept k hk))
  exact {
    taken := fun k hk hdue => (hleft k hk).trans (State.aged?_of_overdue hdue)
    untouched := fun k hk hdue => (hleft k hk).trans (State.aged?_of_not_overdue hdue)
    lent := fun k hk hlent hdue => hslots ▸ State.mem_kept_of_lent hk hlent hdue
    stale := fun k => by
      rw [State.stale, List.mem_filter, State.isStale_iff]
    fresh := fun k hk => State.isOverdue_of_isStale (List.mem_filter.mp hk).2
    spare := fun k hk => by
      obtain ⟨hmem, -, x, hx, hb⟩ := State.mem_spare.mp (List.mem_of_mem_take hk)
      refine ⟨hmem, x, hx, hb, fun k' hk' x' hx' hb' => ?_⟩
      obtain ⟨hmem', hfresh, hleft'⟩ := State.mem_kept.mp (hkept k' hk')
      rw [hleft k' hk'] at hx'
      have hspare : k' ∈ s.spare now e := State.mem_spare.mpr
        ⟨hmem', by simpa [State.stale, hmem'] using hfresh, x', hx', hb'⟩
      obtain ⟨y, y', hy, hy', hle⟩ := State.surplus_before_spare hk hspare hleft'
      rw [Option.some.inj (hx.symm.trans hy), Option.some.inj (hx'.symm.trans hy')]
      exact hle
    count := State.length_surplus s now e
    once := hs.nodup_gone now
    slotsOf := hslots
    closed := fun k hk => by
      rw [State.handle?, hslot]
      exact h.gone hk
    pending := by rw [Registry.pendingIn, hentry, h.entry, Registry.pendingIn]
    others := fun o ho => (hentry o).trans (h.entry_of_ne ho)
    identities := fun j hj => by
      rw [hothers j (hentry e ▸ hj), Registry.entryId?, h.known, Registry.entryId?]
    elsewhere := fun id hid => (hslot id).trans (h.elsewhere hid) }

/-- **A sweep does to the slots of an identity what the rules say**, whatever the disconnects come
to and however long they take: it takes back what was lent for too long, closes what has been idle
for too long, and then what is too many, in the order of release. Each slot that is closed is asked
to disconnect once, and nothing else is asked. The report and the ledger count exactly this.

This is the sweep of one identity as a sweep of everything makes it. After the three passes it
forgets the identity if nothing is left of it, which the passes alone would not do; it is the one
thing that `State.Trims` allows beyond them (`identities`). -/
theorem sweep_keeps_to_rules (hs : s.Live e)
    (hown : ((s.slotsOf e).map fun k => s.handle? k.2).Nodup) (i : Identity) (now : Nat) :
    (sweepOf s now [(i, e)]).Concludes (now ≤ ·) fun seen s' result =>
      ∃ idle surplus, s.Trims now i e idle surplus s' ∧
        seen.map (·.call.disconnected?) = (idle ++ surplus).map (fun k => s.handle? k.2) ∧
        (seen.map (·.call.disconnected?)).Nodup ∧
        let released := (s.slotsOf e).countP fun k => s.isOverdue now k.2
        result = .swept ⟨released, idle.length, surplus.length⟩ ∧
        s'.ledger = { s.ledger with
          evictedReleased := s.ledger.evictedReleased + released
          evictedClosed := s.ledger.evictedClosed + (idle.length + surplus.length)
          disconnectFailures := s.ledger.disconnectFailures + Exchange.failures seen } := by
  refine (concludes_sweepOf hs i (Nat.le_refl now)).imp fun seen s' result hend => ?_
  obtain ⟨s₁, hprunes, rfl, hresult⟩ := hend
  refine ⟨s.stale now e, s.surplus now e, hprunes.trims hs i _, hprunes.calls, ?_, hresult, ?_⟩
  · have hinj : ∀ k ∈ s.stale now e ++ s.surplus now e, ∀ k' ∈ s.stale now e ++ s.surplus now e,
        s.handle? k.2 = s.handle? k'.2 → k = k' := fun k hk k' hk' heq =>
      List.inj_on_of_nodup_map hown (s.gone_subset now e hk) (s.gone_subset now e hk') heq
    rw [hprunes.calls]
    exact (hs.nodup_gone now).map_on hinj
  · rw [ledger_endSweep, hprunes.ledger]
    rfl

/-- Of the two slots of the first identity one is taken back, and one is too many. -/
theorem sweep_keeps_to_rules_crowded : crowded.Live 0 ∧
    ((crowded.slotsOf 0).map fun k => crowded.handle? k.2).Nodup ∧
    (sweepOf crowded 20 [(⟨"host", 22, "one", "secret"⟩, 0)]).Concludes (20 ≤ ·)
      fun seen s' result => result = .swept ⟨1, 0, 1⟩ ∧ seen.length = 1 ∧
        (s'.slotsOf 0).length = 1 := by
  have hlive : crowded.Live 0 :=
    upright_crowded.live (k := (⟨"host", 22, "one", "secret"⟩, 0)) (by decide)
  have hown : ((crowded.slotsOf 0).map fun k => crowded.handle? k.2).Nodup := by decide
  refine ⟨hlive, hown, (sweep_keeps_to_rules hlive hown _ 20).imp fun seen s' result h => ?_⟩
  obtain ⟨idle, surplus, htrims, hcalls, -, hresult, -⟩ := h
  have hidle : idle = [] := by
    refine List.eq_nil_iff_forall_not_mem.mpr fun k hk => ?_
    obtain ⟨hmem, x, hx, -, hlong⟩ := (htrims.stale k).mp hk
    have hfresh : ∀ k ∈ crowded.slotsOf 0, ∀ x ∈ crowded.aged? 20 k.2,
        20 - x.releaseTime ≤ crowded.policy.idleTimeout.nanos := by decide
    exact absurd hlong (Nat.not_lt.mpr (hfresh k hmem x hx))
  subst hidle
  have hone : surplus.length = 1 := htrims.count.trans (by decide)
  have hleft := length_add_length_filter htrims.once hlive.nodup fun k hk =>
    (htrims.spare k hk).1
  have htwo : (crowded.slotsOf 0).length = 2 := rfl
  rw [← htrims.slotsOf, List.nil_append, hone, htwo] at hleft
  refine ⟨?_, ?_, by omega⟩
  · rw [hresult, hone]
    rfl
  · simpa [hone] using congrArg List.length hcalls

end ConnectionLeasing.Affine

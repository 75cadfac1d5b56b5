import ConnectionLeasing.Proofs.Affine.Ending
import ConnectionLeasing.Proofs.Affine.Limit
import ConnectionLeasing.Proofs.Utilization

/-!
# The views of a manager agree

Statistics, metrics and health count slots on different ways through the registry. All of them count
the slots that some context holds, each once:

* `Stage.Single`, `Change.single`: whatever operations move while others wait, no slot number stands
  in two places of the registry.
* `Stage.Indexed.mem_registered`, `Stage.Indexed.statistics_eq`: so the numbers that the views run
  through are the held slots without repetition, and each row has the counts of its identity.
* `views_agree`: the counts of all views, and the room that bounds them.
-/

namespace ConnectionLeasing.Affine

/-! ### A slot stands in one place -/

namespace Stage

/-- Registered slots have been made, and none stands in two places. -/
structure Single (g : Stage) : Prop where
  made : ∀ {e c id}, g.state.slotIn? e c = some id → id < g.state.slots.length
  once : ∀ {e c e' c' id}, g.state.slotIn? e c = some id → g.state.slotIn? e' c' = some id →
    e' = e ∧ c' = c

theorem Single.of_registered {g g' : Stage} (h : g.Single)
    (hslots : g.state.slots.length ≤ g'.state.slots.length)
    (hreg : ∀ {e c id}, g'.state.slotIn? e c = some id → g.state.slotIn? e c = some id) :
    g'.Single where
  made hid := Nat.lt_of_lt_of_le (h.made (hreg hid)) hslots
  once hid hid' := h.once (hreg hid) (hreg hid')

variable {g : Stage} {now e : Nat} {r : Request}

theorem Single.register (hs : g.Single) (he : e < g.state.registry.entries.length) (h : Handle) :
    (g.register now r e h).Single := by
  refine ⟨fun {e' c' id} hid => ?_, fun {e₁ c₁ e₂ c₂ id} h₁ h₂ => ?_⟩
  · show id < (g.state.slots ++ [_]).length
    rw [List.length_append, List.length_singleton]
    rcases slotIn?_register_cases he hid with ⟨-, -, rfl⟩ | ⟨-, hid⟩
    · exact Nat.lt_succ_self _
    · exact Nat.lt_succ_of_lt (hs.made hid)
  · rcases slotIn?_register_cases he h₁ with ⟨he₁, hc₁, hid₁⟩ | ⟨-, h₁⟩ <;>
      rcases slotIn?_register_cases he h₂ with ⟨he₂, hc₂, hid₂⟩ | ⟨-, h₂⟩
    · exact ⟨he₂.symm.trans he₁, hc₂.symm.trans hc₁⟩
    · exact absurd hid₁ (Nat.ne_of_lt (hs.made h₂))
    · exact absurd hid₂ (Nat.ne_of_lt (hs.made h₁))
    · exact hs.once h₁ h₂

theorem Single.move (hs : g.Single) {source : ContextId} {id : Nat}
    (hid : g.state.slotIn? e source = some id) : (g.move now r e source id).Single := by
  have hreg : ∀ {e' c' id'}, (g.move now r e source id).state.slotIn? e' c' = some id' →
      (e = e' ∧ r.context = c' ∧ id' = id) ∨
        (¬ (e = e' ∧ r.context = c') ∧ id' ≠ id ∧ g.state.slotIn? e' c' = some id') :=
    slotIn?_move_cases hid (hs.once hid)
  refine ⟨fun {e' c' id'} h => ?_, fun {e₁ c₁ e₂ c₂ id'} h₁ h₂ => ?_⟩
  · have hslots : (g.move now r e source id).state.slots.length = g.state.slots.length := by
      simp [Stage.move, State.mapSlot]
    rw [hslots]
    rcases hreg h with ⟨-, -, rfl⟩ | ⟨-, -, h⟩
    · exact hs.made hid
    · exact hs.made h
  · rcases hreg h₁ with ⟨he₁, hc₁, hid₁⟩ | ⟨-, hne₁, h₁⟩ <;>
      rcases hreg h₂ with ⟨he₂, hc₂, hid₂⟩ | ⟨-, hne₂, h₂⟩
    · exact ⟨he₂.symm.trans he₁, hc₂.symm.trans hc₁⟩
    · exact absurd hid₁ hne₂
    · exact absurd hid₂ hne₁
    · exact hs.once h₁ h₂

end Stage

section change
variable {calm : Prop} {k : Command} {now : Nat} {others : Nat → Nat} {g g' : Stage}

/-- **Every change leaves each slot in one place.** -/
theorem Change.single (h : Change calm k now g g') (hm : g.Metered others) (hs : g.Single) :
    g'.Single := by
  cases h with
  | silent observers ledger journal => exact hs.of_registered (Nat.le_refl _) fun hid => hid
  | know i hn =>
    refine hs.of_registered (Nat.le_refl _) fun {e c id} hid => ?_
    exact (Registry.slotIn?_ensure e c).symm.trans hid
  | claim i e hn room hg =>
    refine hs.of_registered (Nat.le_refl _) fun {e' c id} hid => ?_
    exact (Registry.slotIn?_claim e' c).symm.trans hid
  | cancel e hg =>
    refine hs.of_registered (Nat.le_refl _) fun {e' c id} hid => ?_
    exact (Registry.slotIn?_cancel e' c).symm.trans hid
  | register r e h hk hg hd he hh =>
    -- the claim is counted, so its entry exists
    have hclaim := (hm e).1
    rw [if_pos hg] at hclaim
    exact hs.register (Registry.lt_of_pendingIn (by omega)) h
  | idle id hidle => exact hs.of_registered (List.length_modify ..).ge fun hid => hid
  | lend r id hk hown => exact hs.of_registered (List.length_modify ..).ge fun hid => hid
  | move r e source id hk hid hd hne he ho hl => exact hs.move hid
  | take c hh ho hp hd hw hc => exact hs.of_registered (List.length_modify ..).ge fun hid => hid
  | finish c failure hc =>
    refine hs.of_registered ?_ fun {e c' id} hid => ?_
    · show _ ≤ (g.state.finishClosing c failure).slots.length
      rw [State.slots_finishClosing]
      exact (List.length_modify ..).ge
    · have hid' : (g.state.finishClosing c failure).slotIn? e c' = some id := hid
      rw [State.slotIn?_finishClosing] at hid'
      split at hid'
      · cases hid'
      · exact hid'
  | forget i e hf => exact hs.of_registered (Nat.le_refl _) fun hid => hid
  | drain hk => exact hs.of_registered (Nat.le_refl _) fun hid => hid

theorem Trail.single (h : Trail calm k now g g') (hi : g.Indexed) (hm : g.Metered others)
    (hs : g.Single) : g'.Single := by
  induction h with
  | refl => exact hs
  | tail trail step ih => exact step.single (Trail.metered trail hi hm) ih

end change

/-- In every system of every run each slot stands in one place, under an identity that is known by
its own entry. -/
theorem Reachable.single {may : Overlap} {m : System} (hm : Reachable may m) :
    ∃ g, m.Good False g ∧ g.Single := by
  induction hm with
  | initial settings factory now =>
    have hslot : ∀ {e c id}, (System.initialStage settings factory).state.slotIn? e c ≠ some id :=
      fun h => by
        simp [System.initialStage, State.slotIn?, Registry.slotIn?, State.initial, Registry.entry,
          Entry.slot?] at h
    exact ⟨_, System.good_initial False settings factory now, fun h => absurd h hslot,
      fun h => absurd h hslot⟩
  | next hm step ih =>
    obtain ⟨g, hg, hs⟩ := ih
    obtain ⟨g', hpassage⟩ := hg.next False.elim step
    obtain ⟨c, x, -, -, ht, others, hothers⟩ := hpassage.trail
    refine ⟨g', hpassage.good, ht.single (hg.indexed.inHand c x)
      (hg.metered hm.metered (fun e => (hothers e).1) x) ⟨hs.made, hs.once⟩⟩

/-! ### What the views count -/

namespace State

/-- The slots that contexts hold, by number. -/
def held (s : State) : Set Nat := {id | ∃ i c, s.registry.slot? i c = some id}

/-- The held slots that are lent out. -/
def lentOut (s : State) : Set Nat := {id ∈ s.held | s.isLent id}

/-- The counts of an identity: its slots, and those of them that are lent out. -/
noncomputable def row (s : State) (i : Identity) : IdentityStatistics where
  host := i.host
  port := i.port
  username := i.username
  contexts := s.registry.slotCount i
  borrowed := {id | (∃ c, s.registry.slot? i c = some id) ∧ s.isLent id}.ncard

/-- What there is to report on the health of a manager. -/
def health (s : State) : HealthStatus := .ofStatistics s.statistics s.settings.maxConnections

/-- The report on the health of a manager, or what stands in its way. -/
def healthReport (s : State) : Except Overflow HealthStatus :=
  HealthStatus.report s.statistics s.settings.maxConnections

/-- The identities that are known. -/
def identities (s : State) : List Identity := Keyed.keys s.registry.known

variable {s : State}

theorem mem_identities (i : Identity) : i ∈ s.identities ↔ (s.registry.entryId? i).isSome := by
  have hnone := Keyed.get?_eq_none_iff s.registry.known i
  rw [identities, Registry.entryId?, Option.isSome_iff_ne_none, ne_eq, hnone, not_not]

theorem ncard_of_nodup {l : List Nat} (hl : l.Nodup) {ids : Set Nat}
    (h : ∀ id, id ∈ ids ↔ id ∈ l) : ids.ncard = l.length := by
  have hset : ids = ↑l.toFinset := by
    ext id
    simp [h id]
  rw [hset, Set.ncard_coe_finset, List.toFinset_card_of_nodup hl]

theorem total_eq_sum (count : IdentityStatistics → Nat) (rows : List IdentityStatistics) :
    IdentityStatistics.total count rows = (rows.map count).sum := by
  induction rows with
  | nil => rfl
  | cons x rows ih => rw [IdentityStatistics.total, ih, List.map_cons, List.sum_cons]

theorem length_registered (s : State) :
    s.registered.length = (s.registry.known.map fun p => (s.registry.entry p.2).size).sum := by
  rw [registered, List.length_flatMap]
  simp only [List.length_map]
  rfl

theorem total_contexts (s : State) :
    IdentityStatistics.total (·.contexts) s.statistics = s.registered.length := by
  rw [total_eq_sum, statistics, Registry.statistics, List.map_map, length_registered]
  rfl

theorem totalSlots_eq (s : State) : s.registry.totalSlots = s.registered.length := by
  rw [length_registered, List.sum_eq_foldr, List.foldr_map]
  rfl

end State

section views
variable {m : System} {g : Stage}

theorem Stage.Indexed.entryId?_eq_some (hg : g.Indexed) (p : Identity × Nat) :
    g.state.registry.entryId? p.1 = some p.2 ↔ p ∈ g.state.registry.known :=
  Keyed.get?_eq_some_iff hg.known p.1 p.2

theorem Stage.Indexed.mem_registered (hg : g.Indexed) (id : Nat) :
    id ∈ g.state.held ↔ id ∈ g.state.registered := by
  rw [State.registered, List.mem_flatMap]
  constructor
  · rintro ⟨i, c, hslot⟩
    obtain ⟨e, he, hc⟩ := Option.bind_eq_some_iff.mp hslot
    exact ⟨(i, e), (hg.entryId?_eq_some (i, e)).mp he,
      List.mem_map.mpr ⟨(c, id), Registry.mem_of_slotIn? hc, rfl⟩⟩
  · rintro ⟨p, hp, hid⟩
    obtain ⟨⟨c, id⟩, hc, rfl⟩ := List.mem_map.mp hid
    refine ⟨p.1, c, Option.bind_eq_some_iff.mpr ⟨p.2, (hg.entryId?_eq_some p).mpr hp, ?_⟩⟩
    exact Registry.slotIn?_of_mem hg.keys hc

theorem Stage.Indexed.statistics_eq (hg : g.Indexed) (hnodup : g.state.registered.Nodup) :
    g.state.statistics = g.state.identities.map g.state.row := by
  rw [State.statistics, Registry.statistics, State.identities, Keyed.keys, List.map_map]
  refine List.map_congr_left fun p hp => ?_
  have hentry := (hg.entryId?_eq_some p).mpr hp
  have hids : ((g.state.slotsOf p.2).map (·.2)).Nodup := (List.nodup_flatMap.mp hnodup).1 p hp
  have hcount : g.state.registry.slotCount p.1 = (g.state.registry.entry p.2).size := by
    rw [Registry.slotCount, Registry.entryOf, hentry]
  have hlent : {id | (∃ c, g.state.registry.slot? p.1 c = some id) ∧ g.state.isLent id}.ncard =
      (g.state.slotsOf p.2).countP fun k => g.state.isLent k.2 := by
    rw [State.ncard_of_nodup (hids.filter g.state.isLent), ← List.countP_eq_length_filter,
      List.countP_map]
    · rfl
    · intro id
      simp only [Set.mem_ofPred_eq, List.mem_filter, List.mem_map, Prod.exists, exists_eq_right,
        Registry.slot?_entry hentry]
      exact and_congr_left' (exists_congr fun c => ⟨Registry.mem_of_slotIn?,
        Registry.slotIn?_of_mem hg.keys⟩)
  rw [Function.comp_apply, State.row, hcount, hlent]
  rfl

end views

/-- **All views count the held slots.** Statistics have one row for each known identity; the slots
counted by rows, identities, registry, metrics and health are the slots that contexts hold, and the
lent ones among them are those that rows, metrics and health count as lent. What metrics and health
count as idle is the rest. No more slots are held than the identities have room for, so as long as
that room is a machine word, there is a report on health, and utilisation is a number from zero to
one. -/
theorem views_agree {may : Overlap} {m : System} (hm : Reachable may m) :
    let s := m.state
    (s.identities.Nodup ∧ (∀ i, i ∈ s.identities ↔ (s.registry.entryId? i).isSome) ∧
      s.statistics = s.identities.map s.row) ∧
    (IdentityStatistics.total (·.contexts) s.statistics = s.held.ncard ∧
      (s.identities.map s.registry.slotCount).sum = s.held.ncard ∧
      s.registry.totalSlots = s.held.ncard ∧ s.metrics.openConnections = s.held.ncard ∧
      s.health.openConnections = s.held.ncard) ∧
    (IdentityStatistics.total (·.borrowed) s.statistics = s.lentOut.ncard ∧
      s.metrics.borrowedConnections = s.lentOut.ncard ∧
      s.health.borrowedConnections = s.lentOut.ncard ∧ s.lentOut.ncard ≤ s.held.ncard) ∧
    (s.metrics.idleConnections = (s.held \ s.lentOut).ncard ∧
      s.health.idleConnections = (s.held \ s.lentOut).ncard) ∧
    s.held.ncard ≤ s.registry.size * s.settings.maxConnections ∧
    (s.registry.size * s.settings.maxConnections < UInt64.size →
      s.healthReport = .ok s.health ∧
      0 ≤ s.health.utilization.value ∧ s.health.utilization.value ≤ 1) := by
  obtain ⟨g, hg, hsingle⟩ := hm.single
  have hnodup := hg.indexed.nodup_registered hsingle.once
  have hstatistics := hg.indexed.statistics_eq hnodup
  have hmem := hg.indexed.mem_registered
  have hids : g.state.identities.Nodup := hg.indexed.known
  rw [hg.state] at hnodup hstatistics hmem hids
  intro s
  have hheld : s.held.ncard = s.registered.length := State.ncard_of_nodup hnodup hmem
  have hfinite : s.held.Finite := Set.Finite.subset (List.finite_toSet s.registered) fun id hid =>
    (hmem id).mp hid
  have hlent : s.lentOut.ncard = s.registered.countP s.isLent := by
    rw [State.ncard_of_nodup (hnodup.filter s.isLent), List.countP_eq_length_filter]
    intro id
    rw [List.mem_filter, ← hmem id]
    rfl
  have hcontexts : IdentityStatistics.total (·.contexts) s.statistics = s.held.ncard := by
    rw [hheld, State.total_contexts]
  have hborrowed : IdentityStatistics.total (·.borrowed) s.statistics = s.lentOut.ncard := by
    rw [hlent]
    exact borrowedConnections_eq s
  have hle : s.lentOut.ncard ≤ s.held.ncard := Set.ncard_le_ncard (Set.sep_subset _ _) hfinite
  have hidle : (s.held \ s.lentOut).ncard = s.held.ncard - s.lentOut.ncard :=
    Set.ncard_sdiff (Set.sep_subset _ _) (hfinite.subset (Set.sep_subset _ _))
  have hroom : s.held.ncard ≤ s.registry.size * s.settings.maxConnections := by
    rw [hheld, State.length_registered]
    refine (List.sum_le_card_nsmul _ s.settings.maxConnections fun n hn => ?_).trans ?_
    · obtain ⟨p, -, rfl⟩ := List.mem_map.mp hn
      exact (Nat.le_add_right _ _).trans (hm.metered p.2).2
    · rw [List.length_map, smul_eq_mul]
      rfl
  refine ⟨⟨hids, State.mem_identities, hstatistics⟩,
    ⟨hcontexts, ?_, (State.totalSlots_eq s).trans hheld.symm, hcontexts, hcontexts⟩,
    ⟨hborrowed, hborrowed, hborrowed, hle⟩, ⟨?_, ?_⟩, hroom, fun hfits => ?_⟩
  · rw [← hcontexts, State.total_eq_sum, hstatistics, List.map_map]
    rfl
  · rw [hidle, ← hcontexts, ← hborrowed]
    rfl
  · rw [hidle, ← hcontexts, ← hborrowed]
    rfl
  · have hcapacity : HealthStatus.capacity s.statistics.length s.settings.maxConnections =
        s.registry.size * s.settings.maxConnections := by
      rw [HealthStatus.capacity, State.statistics, Registry.statistics, List.length_map]
      rfl
    have hcounts : HealthStatus.CountsFit s.statistics := by
      rw [HealthStatus.CountsFit, hcontexts, hborrowed]
      exact ⟨hroom.trans_lt hfits, (hle.trans hroom).trans_lt hfits⟩
    refine ⟨?_, Number.Binary64.value_nonneg _, HealthStatus.value_utilizationOf_le_one ?_⟩
    · rw [State.healthReport, HealthStatus.report, if_pos hcounts, hcapacity, if_pos hfits]
      rfl
    · rw [hcontexts, hcapacity]
      exact hroom

/-- Two connections with room for four, one of them given back. -/
theorem views_agree_two_contexts : ∃ m, Reachable .any m ∧ m.ongoing = [] ∧
    m.state.held.ncard = 2 ∧ m.state.lentOut.ncard = 1 ∧ m.state.metrics.idleConnections = 1 ∧
    m.state.registry.size * m.state.settings.maxConnections < UInt64.size ∧
    m.state.health.utilization = .ofRatio 1 2 ∧ m.state.health.utilization.value ≤ 1 := by
  let i : Identity := ⟨"host", 22, "user", "secret"⟩
  let r : Request := ⟨i, ⟨1⟩, .sftp⟩
  let r' : Request := ⟨i, ⟨2⟩, .shell⟩
  let o : Ongoing := ⟨.borrow r, .opening r 0 .sftp (.ofMillis 5000)⟩
  let o' : Ongoing := ⟨.borrow r', .opening r' 0 .shell (.ofMillis 5000)⟩
  let m₁ := (System.initial { maxConnections := 4 } .faithful 0).started (.borrow r)
  let m₂ := m₁.resumed o ⟨⟨1, .sftp⟩, none⟩ []
  let m₃ := m₂.started (.borrow r')
  let m₄ := m₃.resumed o' ⟨⟨2, .shell⟩, none⟩ []
  let m₅ := m₄.started (.release i ⟨1⟩)
  have hm₁ : Reachable .any m₁ :=
    .next (.initial _ .faithful 0) (.start _ (.borrow r) fun _ _ => trivial)
  have hm₂ : Reachable .any m₂ :=
    .next hm₁ (.resume m₁ [] o [] ⟨⟨1, .sftp⟩, none⟩ rfl (by simp) ⟨by decide, rfl⟩)
  have hm₃ : Reachable .any m₃ := .next hm₂ (.start _ (.borrow r') fun _ _ => trivial)
  have hongoing : m₃.ongoing = [o'] := by cbv
  have hm₄ : Reachable .any m₄ :=
    .next hm₃ (.resume m₃ [] o' [] ⟨⟨2, .shell⟩, none⟩ hongoing (by simp) ⟨by decide, rfl⟩)
  have hm₅ : Reachable .any m₅ := .next hm₄ (.start _ (.release i ⟨1⟩) fun _ _ => trivial)
  have hroom : m₅.state.registry.size * m₅.state.settings.maxConnections = 4 := by decide
  have hfits : m₅.state.registry.size * m₅.state.settings.maxConnections < UInt64.size := by
    rw [hroom]
    decide
  obtain ⟨-, ⟨-, -, htotal, -⟩, ⟨-, hlent, -⟩, -, -, hutilization⟩ := views_agree hm₅
  have hheld : m₅.state.held.ncard = 2 := htotal.symm.trans (by decide)
  exact ⟨m₅, hm₅, List.isEmpty_iff.mp (by decide), hheld, hlent.symm.trans (by decide), by decide,
    hfits, by decide, (hutilization hfits).2.2⟩

end ConnectionLeasing.Affine

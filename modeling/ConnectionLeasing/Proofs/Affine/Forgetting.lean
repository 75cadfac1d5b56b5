import ConnectionLeasing.Proofs.Affine.Purging
import ConnectionLeasing.Proofs.Affine.Stranding

/-!
# What a sweep of all identities forgets

A sweep of all identities forgets those that have neither a slot nor a connection on its way. An
identity for which a connection is being opened is therefore still known when that is registered,
by the same entry, however many sweeps there were meanwhile.

* `Swept.entryId?_iff`, `Swept.again`: what is known after a sweep, and what another one does.
* `Awaits.sweeps`, `Awaits.registers`: a connection that was being opened finds its entry.
* `sweep_exact`: all that a sweep does.
-/

namespace ConnectionLeasing

theorem Entry.isVacant_eq_false {x : Entry} :
    x.isVacant = false ↔ x.slots ≠ [] ∨ 0 < x.pending := by
  rw [Entry.isVacant, Bool.and_eq_false_iff, decide_eq_false_iff_not, List.isEmpty_eq_false_iff,
    or_comm, Nat.pos_iff_ne_zero]

namespace Affine

variable {s s' : State} {now e : Nat} {k : Identity × Nat} {es : List (Identity × Nat)}

/-! ### What is known after a sweep -/

section swept
variable (h : s.Swept now es s') (hs : s.Upright) (hes : es.Perm s.registry.known)
include h hs hes

/-- After a sweep an identity is known if it was known before and something is left of it. -/
theorem State.Swept.entryId?_iff (i : Identity) (e : Nat) : s'.registry.entryId? i = some e ↔
    s.registry.entryId? i = some e ∧ (s'.slotsOf e ≠ [] ∨ 0 < s'.registry.pendingIn e) := by
  have hs' := h.upright hs hes.subset
  rw [Registry.entryId?, Keyed.get?_eq_some_iff hs'.identities, Registry.entryId?,
    Keyed.get?_eq_some_iff hs.identities, h.known, List.mem_filter]
  refine and_congr_right fun hmem => ?_
  rw [decide_eq_false (not_not_intro (hes.mem_iff.mpr hmem)), Bool.false_or, Bool.not_eq_true']
  exact Entry.isVacant_eq_false

/-- A second sweep at the same moment does nothing. -/
theorem State.Swept.again : start s' now .sweep = (s', .done (.swept {})) := by
  have hs' := h.upright hs hes.subset
  refine sweepAll_of_nothing_due (fun k hk => ?_) {}
  have hmem : k ∈ es := hes.mem_iff.mpr (h.mem_known hk)
  refine ⟨hs'.live hk, h.dueReport (hs.live (h.mem_known hk)) hmem, ?_⟩
  rw [h.known, List.mem_filter, decide_eq_false (not_not_intro hmem), Bool.false_or,
    Bool.not_eq_true'] at hk
  exact hk.2

end swept

theorem State.dueTotal_perm (s : State) (now : Nat) {es es' : List (Identity × Nat)}
    (h : es.Perm es') : s.dueTotal now es = s.dueTotal now es' := by
  have hcomm : LeftCommutative fun (k : Identity × Nat) (total : SweepReport) =>
      (s.dueReport now k.2).merge total := ⟨fun k k' =>
    SweepReport.merge_left_comm _ _⟩
  exact h.foldr_eq ({} : SweepReport)

/-! ### Connections that are being opened -/

/-- Sweeps of all identities, any number of them, at any moments and whatever their calls are
answered. -/
def SweepsTo : State → State → Prop :=
  Relation.ReflTransGen fun s s' => ∃ now r, (start s now .sweep).Leads now s' r

/-- An identity is known by an entry in which room is claimed. -/
structure State.Awaits (s : State) (i : Identity) (e : Nat) : Prop where
  upright : s.Upright
  known : s.registry.entryId? i = some e
  pending : 0 < s.registry.pendingIn e

variable {i : Identity}

theorem State.Awaits.sweep (ha : s.Awaits i e) {r : Result}
    (h : (start s now .sweep).Leads now s' r) : s'.Awaits i e := by
  have hends : (start s now .sweep).Ends now fun s' _ => s.Swept now s.registry.known s' :=
    ends_sweepAll ha.upright (fun _ hk => hk) (.of_map _ ha.upright.identities)
      fun s' hswept => .done hswept
  have hswept := hends.of_leads h
  have hmem : (i, e) ∈ s.registry.known := Keyed.mem_of_get? ha.known
  have hpending : 0 < s'.registry.pendingIn e := by
    rw [hswept.pendingIn hmem]
    exact ha.pending
  exact ⟨hswept.upright ha.upright fun _ hk => hk,
    (hswept.entryId?_iff ha.upright (.refl _) i e).mpr ⟨ha.known, .inr hpending⟩, hpending⟩

theorem State.Awaits.sweeps (ha : s.Awaits i e) (h : SweepsTo s s') : s'.Awaits i e := by
  induction h with
  | refl => exact ha
  | tail _ hstep ih =>
    obtain ⟨now, r, hleads⟩ := hstep
    exact ih.sweep hleads

/-- A change of the registry that leaves the slots of every entry alone leaves a manager upright, if
entries that become known are empty. -/
theorem State.Upright.withRegistry (hs : s.Upright) {registry : Registry}
    (hidentities : (Keyed.keys registry.known).Nodup) (hentries : (registry.known.map (·.2)).Nodup)
    (hmade : ∀ k ∈ registry.known, k.2 < registry.entries.length)
    (hslots : ∀ e, (registry.entry e).slots = s.slotsOf e)
    (hnew : ∀ k ∈ registry.known, k ∈ s.registry.known ∨ s.slotsOf k.2 = []) :
    { s with registry }.Upright := by
  have hold : ∀ k ∈ registry.known, ∀ p ∈ s.slotsOf k.2, k ∈ s.registry.known := fun k hk p hp =>
    (hnew k hk).resolve_right (List.ne_nil_of_mem hp)
  refine ⟨hidentities, hentries, hmade, fun k hk => ?_, fun k hk p hp => ?_,
    fun k hk k' hk' p hp p' hp' => ?_⟩
  · show (Keyed.keys (registry.entry k.2).slots).Nodup
    rw [hslots]
    rcases hnew k hk with hk | hnone
    · exact hs.contexts k hk
    · rw [hnone]
      exact List.nodup_nil
  · have hp : p ∈ s.slotsOf k.2 := hslots k.2 ▸ hp
    exact hs.opened k (hold k hk p hp) p hp
  · have hp : p ∈ s.slotsOf k.2 := hslots k.2 ▸ hp
    have hp' : p' ∈ s.slotsOf k'.2 := hslots k'.2 ▸ hp'
    exact hs.handles k (hold k hk p hp) k' (hold k' hk' p' hp') p hp p' hp'

theorem State.Upright.awaits (hs : s.Upright) :
    { s with registry := (s.registry.ensure i).1.claim (s.registry.ensure i).2 }.Awaits i
      (s.registry.ensure i).2 := by
  have hslots : ∀ e, (((s.registry.ensure i).1.claim (s.registry.ensure i).2).entry e).slots =
      s.slotsOf e := fun e => by
    rw [Registry.slots_claim, Registry.entry_ensure, State.slotsOf]
  cases hi : s.registry.entryId? i with
  | some e =>
    rw [Registry.ensure_of_some hi] at hslots ⊢
    have hmade := hs.made (i, e) (Keyed.mem_of_get? hi)
    refine ⟨hs.withRegistry hs.identities hs.entries (fun k hk => ?_) hslots fun k hk => .inl hk,
      hi, ?_⟩
    · rw [Registry.claim, Registry.length_mapEntry]
      exact hs.made k hk
    · rw [Registry.pendingIn_claim e hmade, if_pos rfl]
      exact Nat.succ_pos _
  | none =>
    rw [Registry.ensure_of_none hi] at hslots ⊢
    have hnotMem : i ∉ Keyed.keys s.registry.known := (Keyed.get?_eq_none_iff _ i).mp hi
    have hknown := Keyed.put_of_not_mem hnotMem s.registry.entries.length
    have hlength : (s.registry.entries ++ [({} : Entry)]).length = s.registry.entries.length + 1 :=
      List.length_append
    refine ⟨hs.withRegistry (Keyed.nodup_put hs.identities _ _) ?_ (fun k hk => ?_) hslots
      fun k hk => ?_, Keyed.get?_put_self _ _ _, ?_⟩
    · show ((Keyed.put s.registry.known i s.registry.entries.length).map (·.2)).Nodup
      rw [hknown, List.map_append, List.nodup_append]
      refine ⟨hs.entries, List.nodup_singleton _, fun a ha b hb heq => ?_⟩
      obtain ⟨k, hk, rfl⟩ := List.mem_map.mp ha
      rw [List.map_singleton, List.mem_singleton] at hb
      exact absurd (heq.trans hb) (Nat.ne_of_lt (hs.made k hk))
    · rw [Registry.claim, Registry.length_mapEntry, hlength]
      rcases Keyed.mem_put hk with rfl | hk
      · exact Nat.lt_succ_self _
      · exact Nat.lt_succ_of_lt (hs.made k hk)
    · rcases Keyed.mem_put hk with rfl | hk
      · exact .inr (by rw [State.slotsOf, Registry.entry_of_le (Nat.le_refl _)])
      · exact .inl hk
    · rw [Registry.pendingIn_claim _ (by rw [hlength]; exact Nat.lt_succ_self _), if_pos rfl]
      exact Nat.succ_pos _

theorem awaits_of_claim (hs : s.Upright) {r r' : Request} {produces : Channel} {timeout : Duration}
    (h : claim s r = (s', .paused (.opening r' e produces timeout))) :
    s'.Awaits r.identity e := by
  have hawaits := hs.awaits (i := r.identity)
  rw [claim, Registry.reserve] at h
  dsimp only at h
  split at h
  · rename_i hroom
    split at hroom
    · cases hroom
      rw [openNew] at h
      split at h
      · cases h
        exact hawaits
      · cases h
    · cases hroom
  · cases h

theorem State.Awaits.registers (ha : s.Awaits i e) (now : Nat) (r : Request) {x : Connected}
    (hx : x.failure = none) :
    let s' := (resumeOpening s now r e x).1
    s'.registry.entryId? i = some e ∧ s'.slotIn? e r.context = some s.slots.length ∧
      s'.handle? s.slots.length = some x.handle := by
  let g : Stage := ⟨s, [], [], none, none, none, [], []⟩
  have hmem : (i, e) ∈ s.registry.known := Keyed.mem_of_get? ha.known
  obtain ⟨hknown, hslot, hhandle⟩ := resumeOpening_registers (g := g) now hx
    (ha.upright.made (i, e) hmem) fun id hid => by
      obtain ⟨y, hy⟩ := ha.upright.opened (i, e) hmem (r.context, id) (Registry.mem_of_slotIn? hid)
      exact State.lt_of_handle? (State.openHandle?_eq_some hy).2
  refine ⟨?_, hslot, hhandle⟩
  rw [Registry.entryId?, hknown]
  exact ha.known

/-- **A sweep of all identities forgets exactly those that have nothing left**, and a second one at
the same moment does nothing at all. In whatever order the identities are swept, each of them keeps
what its own sweep would leave to it, and the report is the sum of those of the single sweeps.
Nothing comes between, but disconnects may fail. So an identity with a connection on its way stays
known, by the entry in which the connection is registered after any number of sweeps. -/
theorem sweep_exact (hs : s.Upright) (now : Nat) :
    start s now .sweep = sweepOf s now s.registry.known ∧
    (∀ order : List (Identity × Nat), order.Perm s.registry.known →
      (sweepOf s now order).Ends now fun s' result =>
        (∀ i e, s'.registry.entryId? i = some e ↔ s.registry.entryId? i = some e ∧
          (s'.slotsOf e ≠ [] ∨ 0 < s'.registry.pendingIn e)) ∧
        (∀ k ∈ s.registry.known, s'.slotsOf k.2 = s.kept now k.2 ∧
          (∀ p ∈ s'.slotsOf k.2, s'.openHandle? p.1 p.2 = s.openHandle? p.1 p.2) ∧
          (∀ p ∈ s.slotsOf k.2, p ∉ s'.slotsOf k.2 → s'.handle? p.2 = none) ∧
          s'.registry.pendingIn k.2 = s.registry.pendingIn k.2) ∧
        result = .swept (s.dueTotal now s.registry.known) ∧
        start s' now .sweep = (s', .done (.swept {}))) ∧
    (∀ k ∈ s.registry.known, (sweepOf s now [k]).Ends now fun s' result =>
      s'.slotsOf k.2 = s.kept now k.2 ∧
      (∀ k' ∈ s.registry.known, k' ≠ k → s'.registry.entry k'.2 = s.registry.entry k'.2) ∧
      result = .swept (s.dueReport now k.2)) ∧
    ∀ r s₁ e produces timeout, claim s r = (s₁, .paused (.opening r e produces timeout)) →
      ∀ s₂, SweepsTo s₁ s₂ → s₂.registry.entryId? r.identity = some e ∧
        ∀ t x, x.failure = none →
          let s₃ := (resume s₂ t (.opening r e produces timeout) x).1
          s₃.registry.entryId? r.identity = some e ∧
          s₃.registry.slot? r.identity r.context = some s₂.slots.length ∧
          s₃.handle? s₂.slots.length = some x.handle := by
  have hn : s.registry.known.Nodup := .of_map _ hs.identities
  refine ⟨rfl, fun order horder => ?_, fun k hk => ?_,
    fun r s₁ e produces timeout hclaim s₂ hsweeps => ?_⟩
  · refine ends_sweepAll hs horder.subset (horder.nodup_iff.mpr hn) fun s' h =>
      .done ⟨h.entryId?_iff hs horder, fun k hk => ?_, ?_, h.again hs horder⟩
    · have hmem : k ∈ order := horder.mem_iff.mpr hk
      refine ⟨h.slotsOf hmem, fun p hp => (h.before hs horder.subset hk hp).2.1,
        fun p hp hgone => h.closed k hmem p hp ?_, h.pendingIn hmem⟩
      rwa [h.slotsOf hmem] at hgone
    · rw [SweepReport.empty_merge, s.dueTotal_perm now horder]
  · have hone : [k] ⊆ s.registry.known := by simpa using hk
    refine ends_sweepAll hs hone (List.nodup_singleton k) fun s' h =>
      .done ⟨h.slotsOf List.mem_cons_self, fun k' hk' hne => ?_, ?_⟩
    · exact (h.spares hs hone hk' (by simpa using hne)).1
    · rw [SweepReport.empty_merge]
      rfl
  · have hawaits := (awaits_of_claim hs hclaim).sweeps hsweeps
    refine ⟨hawaits.known, fun t x hx => ?_⟩
    obtain ⟨hknown, hslot, hhandle⟩ := hawaits.registers t r hx
    exact ⟨hknown, (Registry.slot?_entry hknown _).trans hslot, hhandle⟩

/-- A manager with room for one connection of an identity. One identity has two slots, of which the
first is lent for too long; the other identity has one that is idle for too long. -/
def crowded : State where
  settings := { maxConnections := 1, borrowTimeout := ⟨5⟩, idleTimeout := ⟨10⟩ }
  factory := .faithful
  observers := []
  registry := ⟨[(⟨"host", 22, "one", "secret"⟩, 0), (⟨"host", 22, "two", "secret"⟩, 1)],
    [⟨[(⟨1⟩, 0), (⟨2⟩, 1)], 0⟩, ⟨[(⟨1⟩, 2)], 0⟩]⟩
  slots := [⟨⟨1⟩, some ⟨0, .sftp⟩, true, 0, 0⟩, ⟨⟨2⟩, some ⟨1, .sftp⟩, false, 0, 15⟩,
    ⟨⟨1⟩, some ⟨2, .sftp⟩, false, 0, 0⟩]
  ledger := {}
  journal := #[]

theorem upright_crowded : crowded.Upright where
  identities := by decide
  entries := by decide
  made := by decide
  contexts := by decide
  opened := by
    have hopen : ∀ k ∈ crowded.registry.known, ∀ p ∈ crowded.slotsOf k.2,
        (crowded.openHandle? p.1 p.2).isSome := by decide
    exact fun k hk p hp => Option.isSome_iff_exists.mp (hopen k hk p hp)
  handles := by decide

/-- A borrow for a third identity, which opens a connection in entry 2. -/
def thirdBorrow : Request := ⟨⟨"host", 22, "three", "secret"⟩, ⟨1⟩, .sftp⟩

theorem sweep_exact_crowded : crowded.Upright ∧
    (start crowded 20 .sweep).Ends 20 (fun s' result => result = .swept ⟨1, 1, 1⟩ ∧
      s'.slotsOf 0 = [(⟨1⟩, 0)] ∧ s'.registry.entryId? ⟨"host", 22, "two", "secret"⟩ = none ∧
      start s' 20 .sweep = (s', .done (.swept {}))) ∧
    ∃ s₁ s₂ : State, claim crowded thirdBorrow =
        (s₁, .paused (.opening thirdBorrow 2 .sftp crowded.settings.connectTimeout)) ∧
      SweepsTo s₁ s₂ ∧ s₂.registry.entryId? thirdBorrow.identity = some 2 := by
  obtain ⟨hstart, hsweep, -, hopening⟩ := sweep_exact upright_crowded 20
  refine ⟨upright_crowded, hstart ▸ (hsweep _ (.refl _)).imp
    fun s' result ⟨hknown, hkept, hresult, hagain⟩ => ⟨?_, ?_, ?_, hagain⟩, ?_⟩
  · rw [hresult]
    cbv
  · rw [(hkept (⟨"host", 22, "one", "secret"⟩, 0) (by decide)).1]
    cbv
  · rw [Option.eq_none_iff_forall_ne_some]
    intro e he
    obtain ⟨hbefore, hused⟩ := (hknown _ e).mp he
    obtain rfl : e = 1 := (Option.some.inj hbefore).symm
    obtain ⟨hslots, -, -, hpending⟩ := hkept (⟨"host", 22, "two", "secret"⟩, 1) (by decide)
    rw [hslots, hpending] at hused
    have hnone : crowded.kept 20 1 = [] := by cbv
    exact hused.elim (fun h => h hnone) (Nat.lt_irrefl 0)
  · have hclaim : claim crowded thirdBorrow = ((claim crowded thirdBorrow).1,
        .paused (.opening thirdBorrow 2 .sftp crowded.settings.connectTimeout)) := rfl
    have hupright := (awaits_of_claim upright_crowded hclaim).upright
    obtain ⟨-, hnext, -⟩ := sweep_exact hupright 20
    obtain ⟨s₂, result, hleads, -⟩ := (hnext _ (.refl _)).exists_leads
    have hsweeps : SweepsTo (claim crowded thirdBorrow).1 s₂ := .single ⟨20, result, hleads⟩
    exact ⟨_, s₂, hclaim, hsweeps, (hopening _ _ _ _ _ hclaim s₂ hsweeps).1⟩

end Affine

end ConnectionLeasing

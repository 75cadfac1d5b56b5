import ConnectionLeasing.Proofs.Affine.Passage

/-!
# The connection limit

Room is claimed before a connection opens and settled when it is open or has failed. In every
system of a run, whatever moves while whatever else waits:

* `Stage.Metered`, `Change.metered`: the pending count of an entry is the number of operations that
  hold a claim in it, and slots and claims together stay within the limit. A claim is counted before
  it is held and given up only by the operation that holds it.
* `limit_holds`: the same for every system of a run, and what the end of an opening does to the
  counts.
-/

namespace ConnectionLeasing.Affine

/-! ### Counts in the middle of an operation -/

namespace Stage

/-- Claims of room are counted, the operation's own and those of `others`, and never exceed the
limit together with the slots. -/
def Metered (others : Nat → Nat) (g : Stage) : Prop := ∀ e,
  g.state.registry.pendingIn e = others e + (if g.claim = some e then 1 else 0) ∧
    g.state.registry.sizeIn e + g.state.registry.pendingIn e ≤ g.state.settings.maxConnections

variable {others : Nat → Nat} {g : Stage}

theorem Metered.claim (hm : g.Metered others) {e : Nat} (he : e < g.state.registry.entries.length)
    (room : (g.state.registry.entry e).hasRoom g.state.settings.maxConnections)
    (hg : g.claim = none) :
    { g.withRegistry (g.state.registry.claim e) with claim := some e }.Metered others := by
  intro other
  have hother := hm other
  have hroom : g.state.registry.sizeIn e + g.state.registry.pendingIn e <
      g.state.settings.maxConnections := of_decide_eq_true room
  show (g.state.registry.claim e).pendingIn other = _ ∧
    (g.state.registry.claim e).sizeIn other + (g.state.registry.claim e).pendingIn other ≤ _
  rw [Registry.pendingIn_claim other he, Registry.sizeIn_claim]
  simp only [hg, reduceCtorEq, if_false, Option.some.injEq] at hother ⊢
  split
  · rename_i heq
    subst heq
    exact ⟨by omega, hroom⟩
  · exact hother

theorem Metered.cancel (hm : g.Metered others) {e : Nat} (hg : g.claim = some e) :
    { g.withRegistry (g.state.registry.cancel e) with claim := none }.Metered others := by
  intro other
  have hother := hm other
  show (g.state.registry.cancel e).pendingIn other = _ ∧
    (g.state.registry.cancel e).sizeIn other + (g.state.registry.cancel e).pendingIn other ≤
      g.state.settings.maxConnections
  rw [Registry.pendingIn_cancel, Registry.sizeIn_cancel]
  simp only [hg, Option.some.injEq, reduceCtorEq, if_false] at hother ⊢
  by_cases heq : e = other
  · rw [if_pos heq] at hother ⊢
    omega
  · rw [if_neg heq] at hother ⊢
    exact hother

theorem Metered.register (hm : g.Metered others) {now e : Nat} {r : Request} {h : Handle}
    (hg : g.claim = some e) : (g.register now r e h).Metered others := by
  intro other
  have hother := hm other
  have hsize : (g.register now r e h).state.registry.sizeIn other ≤ _ :=
    Registry.sizeIn_insert_le (r := g.state.registry.cancel e) other r.context
      g.state.slots.length
  have hpending : (g.register now r e h).state.registry.pendingIn other = _ :=
    Registry.pendingIn_insert (r := g.state.registry.cancel e) other r.context
      g.state.slots.length
  rw [Registry.sizeIn_cancel] at hsize
  rw [Registry.pendingIn_cancel] at hpending
  show _ = others other + (if (none : Option Nat) = some other then 1 else 0) ∧ _ ≤
    g.state.settings.maxConnections
  rw [hpending]
  simp only [hg, Option.some.injEq, reduceCtorEq, if_false] at hother ⊢
  by_cases heq : e = other
  · rw [if_pos heq] at hother hsize ⊢
    omega
  · rw [if_neg heq] at hother hsize ⊢
    omega

theorem Metered.move (hm : g.Metered others) {now e id : Nat} {r : Request} {source : ContextId}
    (hs : g.state.slotIn? e source = some id) :
    (g.move now r e source id).Metered others := by
  intro other
  have hother := hm other
  have hsize : (g.move now r e source id).state.registry.sizeIn other ≤ _ :=
    Registry.sizeIn_insert_le (r := g.state.registry.detach e source id) other r.context id
  have hpending : (g.move now r e source id).state.registry.pendingIn other = _ :=
    Registry.pendingIn_insert (r := g.state.registry.detach e source id) other r.context id
  rw [Registry.pendingIn_detach] at hpending
  have hdetach := Registry.sizeIn_detach_le (r := g.state.registry) (e := e) other source id
  rw [hpending]
  refine ⟨hother.1, ?_⟩
  show _ ≤ g.state.settings.maxConnections
  split at hsize
  · rename_i heq
    subst heq
    have hlt := Registry.sizeIn_detach_lt _ _ hs
    omega
  · omega

theorem Metered.finish (hm : g.Metered others) (c : Closing) (failure : Option LeaseError) :
    (g.finish c failure).Metered others := by
  intro other
  have hother := hm other
  have hsettings : (g.state.finishClosing c failure).settings = g.state.settings := by
    cases failure <;> rfl
  have hsize := Registry.sizeIn_detach_le (r := g.state.registry) (e := c.entry) other c.owner
    c.slot
  show (g.state.finishClosing c failure).registry.pendingIn other = _ ∧
    (g.state.finishClosing c failure).registry.sizeIn other +
      (g.state.finishClosing c failure).registry.pendingIn other ≤ _
  rw [show (g.finish c failure).state.settings = _ from hsettings, State.registry_finishClosing,
    Registry.pendingIn_detach]
  exact ⟨hother.1, by omega⟩

end Stage

section change
variable {calm : Prop} {k : Command} {now : Nat} {others : Nat → Nat} {g g' : Stage}

/-- **Every change keeps the counts.** -/
theorem Change.metered (h : Change calm k now g g') (hi : g.Indexed) (hm : g.Metered others) :
    g'.Metered others := by
  cases h with
  | silent observers ledger journal => exact hm
  | know i hn =>
    intro e
    have he := hm e
    rw [← Registry.sizeIn_ensure (i := i) e, ← Registry.pendingIn_ensure (i := i) e] at he
    exact he
  | claim i e hn room hg =>
    refine hm.claim ?_ room hg
    rw [← hi.homes]
    exact (List.getElem?_eq_some_iff.mp (hi.home _ (Keyed.mem_of_get? hn))).1
  | cancel e hg => exact hm.cancel hg
  | register r e h hk hg hd he hh => exact hm.register hg
  | idle id hidle => exact hm
  | lend r id hk hown => exact hm
  | move r e source id hk hs hd hne he ho hl => exact hm.move hs
  | take c hh ho hp hd hw hc => exact hm
  | finish c failure hc => exact hm.finish c failure
  | forget i e hf => exact hm
  | drain hk => exact hm

theorem Trail.metered (h : Trail calm k now g g') (hi : g.Indexed) (hm : g.Metered others) :
    g'.Metered others := by
  induction h with
  | refl => exact hm
  | tail trail step ih => exact step.metered (Trail.indexed trail hi) ih

end change

/-! ### Counts between moves -/

/-- Every pending place belongs to an operation in progress, and the limit holds in every entry. -/
def System.Metered (m : System) : Prop := ∀ e,
  m.state.registry.pendingIn e = m.claims e ∧
    m.state.registry.sizeIn e + m.state.registry.pendingIn e ≤ m.state.settings.maxConnections

theorem System.claims_pos {m : System} {o : Ongoing} {e : Nat} (ho : o ∈ m.ongoing)
    (hclaim : o.frame.claim? = some e) : 0 < m.claims e :=
  List.countP_pos_iff.mpr ⟨o, ho, decide_eq_true hclaim⟩

theorem System.Good.metered {calm : Prop} {m : System} {g : Stage} (hg : m.Good calm g)
    (hm : m.Metered) {c : Option Nat} {others : Nat → Nat}
    (h : ∀ e, m.claims e = others e + if c = some e then 1 else 0) (x : Option Closing) :
    { g with claim := c, closing := x }.Metered others := by
  intro e
  rw [← h e]
  show g.state.registry.pendingIn e = _ ∧ g.state.registry.sizeIn e +
    g.state.registry.pendingIn e ≤ g.state.settings.maxConnections
  rw [hg.state]
  exact hm e

theorem System.Passage.metered {calm : Prop} {m m' : System} {k : Option Command} {g g' : Stage}
    (h : System.Passage calm m k m' g g') (hg : m.Good calm g) (hm : m.Metered) : m'.Metered := by
  obtain ⟨c, x, -, -, ht, others, hothers⟩ := h.trail
  intro e
  have hend := ht.metered (hg.indexed.inHand c x) (hg.metered hm (fun e => (hothers e).1) x) e
  rw [← (hothers e).2, h.good.state] at hend
  exact hend

theorem Reachable.metered {may : Overlap} {m : System} (hm : Reachable may m) : m.Metered := by
  induction hm with
  | initial settings factory now =>
    intro e
    simp [System.claims, System.initial, State.initial, Registry.pendingIn, Registry.sizeIn,
      Registry.entry, Entry.size]
  | next hm step ih =>
    have hgood : ∃ g, System.Good False _ g := hm.good False.elim
    obtain ⟨g, hg⟩ := hgood
    obtain ⟨g', hpassage⟩ := hg.next False.elim step
    exact hpassage.metered hg ih

theorem Reachable.lt_of_claim {may : Overlap} {m : System} (hm : Reachable may m) {o : Ongoing}
    {e : Nat} (ho : o ∈ m.ongoing) (hclaim : o.frame.claim? = some e) :
    e < m.state.registry.entries.length := by
  refine Registry.lt_of_pendingIn ?_
  rw [(hm.metered e).1]
  exact System.claims_pos ho hclaim

/-! ### The end of an opening -/

section opening
variable {s : State} {now e : Nat} {r : Request} {x : Connected}

/-- However an opening ends, it gives up exactly the claim that it held. -/
theorem pendingIn_resumeOpening (other : Nat) :
    (resumeOpening s now r e x).1.registry.pendingIn other =
      if e = other then s.registry.pendingIn other - 1 else s.registry.pendingIn other := by
  rw [← Registry.pendingIn_cancel]
  cases hx : x.failure with
  | some error => rw [resumeOpening, hx]
  | none =>
    rw [← Registry.pendingIn_insert (r := s.registry.cancel e) other r.context s.slots.length]
    unfold resumeOpening
    rw [hx]
    simp only
    split <;> rfl

theorem resumeOpening_of_failure {error : LeaseError} (hx : x.failure = some error) :
    resumeOpening s now r e x =
      ({ s with registry := s.registry.cancel e }, .done (.refused error)) := by
  rw [resumeOpening, hx]

theorem slotIn?_resumeOpening_of_failure (hx : x.failure.isSome) (other : Nat) (c : ContextId) :
    (resumeOpening s now r e x).1.slotIn? other c = s.slotIn? other c := by
  obtain ⟨error, herror⟩ := Option.isSome_iff_exists.mp hx
  rw [resumeOpening_of_failure herror]
  exact Registry.slotIn?_cancel other c

end opening

/-! ### The limit -/

/-- **The connection limit holds in every system of every run**, whatever operations move while
others wait for whatever call. Pending places are exactly the claims of operations in progress, so
none is missing when an opening ends: it gives up its own place and no other, and one that fails
leaves all slots as they are. -/
theorem limit_holds {m : System} (hm : Reachable .any m) :
    (∀ e, m.state.registry.sizeIn e + m.state.registry.pendingIn e ≤
      m.state.settings.maxConnections) ∧
    (∀ e, m.state.registry.pendingIn e = m.claims e) ∧
    ∀ o ∈ m.ongoing, ∀ r e produces timeout, o.frame = .opening r e produces timeout →
      ∀ x : Connected, ∀ s, s = (resume m.state m.now (.opening r e produces timeout) x).1 →
        s.registry.pendingIn e + 1 = m.state.registry.pendingIn e ∧
        (∀ other ≠ e, s.registry.pendingIn other = m.state.registry.pendingIn other) ∧
        (x.failure.isSome → ∀ other c, s.slotIn? other c = m.state.slotIn? other c) := by
  have hmetered := hm.metered
  refine ⟨fun e => (hmetered e).2, fun e => (hmetered e).1, fun o ho r e produces timeout hf x s hs
    => ⟨?_, fun other hne => ?_, fun hx other c => ?_⟩⟩
  · have hclaim : 0 < m.claims e := System.claims_pos ho (by rw [hf]; rfl)
    have hpending : (resumeOpening m.state m.now r e x).1.registry.pendingIn e = _ :=
      pendingIn_resumeOpening e
    rw [← (hmetered e).1] at hclaim
    rw [if_pos rfl] at hpending
    have heq : s.registry.pendingIn e = m.state.registry.pendingIn e - 1 := hs ▸ hpending
    omega
  · have hpending : (resumeOpening m.state m.now r e x).1.registry.pendingIn other = _ :=
      pendingIn_resumeOpening other
    rw [if_neg hne.symm] at hpending
    exact hs ▸ hpending
  · exact hs ▸ slotIn?_resumeOpening_of_failure hx other c

/-- Two borrows of one identity with their connections opening at once. -/
theorem limit_holds_two_openings : ∃ m, Reachable .any m ∧ m.claims 0 = 2 ∧
    m.state.registry.pendingIn 0 = m.claims 0 ∧
    m.state.registry.sizeIn 0 + m.state.registry.pendingIn 0 ≤ m.state.settings.maxConnections := by
  let i : Identity := ⟨"host", 22, "user", "secret"⟩
  have h₁ : Reachable .any _ := .next (.initial {} .faithful 0)
    (.start _ (.borrow ⟨i, ⟨1⟩, .sftp⟩) fun _ _ => trivial)
  have h₂ : Reachable .any _ := .next h₁
    (.start _ (.borrow ⟨i, ⟨2⟩, .shell⟩) fun _ _ => trivial)
  obtain ⟨hlimit, hclaims, -⟩ := limit_holds h₂
  exact ⟨_, h₂, by decide, hclaims 0, hlimit 0⟩

end ConnectionLeasing.Affine

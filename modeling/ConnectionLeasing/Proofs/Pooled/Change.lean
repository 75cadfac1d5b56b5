import ConnectionLeasing.Proofs.Keyed
import ConnectionLeasing.Proofs.Pool.Custody
import ConnectionLeasing.Proofs.Pooled.Run
import Mathlib.Logic.Relation

/-!
# What an operation does to a pooled manager, in small changes

Between two calls an operation changes the manager in a few ways only, listed as `Change`: one of
the pools makes a step, a pool is removed from the directory and closed, or a pool is founded for a
key that has none. What is to be known of all operations is proved once for each change.

* `State.Filed`: the pools of the directory are those of their keys, and every other pool is closed.
* `State.Older`: pools are never lost, keep their source and stay closed, and a pool that has left
  the directory does not come back into it.
* `Change.has`: objects keep the pool they are of, and nothing comes from nowhere.
* `State.Spares`: the pools of an identity stay as they are, as they do under every command that
  does not concern the identity (`Change.spares`).
-/

namespace ConnectionLeasing

/-- The source is the one for a key. -/
structure Source.Serves (source : Source) (factory : Factory) (key : PoolKey) : Prop where
  identity : source.identity = key.identity
  channel : source.channel = key.channel
  produces : factory.produces? key.channel = some source.produces

namespace Pool

variable {α : Type}

/-- After a step from a pool and what is in hand, nothing comes from nowhere, and a closed pool is
still closed. -/
structure Step.Follows (s : Step α) (p : Pool α) (hand : Item α → Prop) : Prop where
  items : ∀ x, x ∈ s.items ∨ x ∈ s.pool.items → hand x ∨ x ∈ p.items
  closed : p.closed = true → s.pool.closed = true

theorem Step.Conserves.follows {s : Step α} {p : Pool α} {hand : List (Item α)}
    (h : s.Conserves p hand) : s.Follows p (· ∈ hand) where
  items _ hx := List.mem_append.mp (h.items.mem_iff.mp (List.mem_append.mpr hx))
  closed := h.closed

theorem Step.Follows.mono {s : Step α} {p : Pool α} {hand hand' : Item α → Prop}
    (h : s.Follows p hand) (hle : ∀ x, hand x → hand' x) : s.Follows p hand' where
  items x hx := (h.items x hx).imp_left (hle x)
  closed := h.closed

theorem closed_drain (p : Pool α) (drained : Nat) (cause : Drain) :
    (p.drain drained cause).pool.closed = p.closed := by
  unfold drain
  split <;> rfl

theorem closed_close (p : Pool α) : p.close.pool.closed = true := closed_drain _ 0 .close

end Pool

namespace Pooled

/-! ### What commands are about -/

/-- Whether a command removes and closes the pools of an identity. -/
def Command.Closes : Command → Identity → Prop
  | close j _, i | closeIdentity j, i => j = i
  | closeAll, _ | shutDown, _ => True
  | select .., _ | release .., _ | tell _, _ | tick, _ | evictIdle, _ | inPool .., _ => False

/-- Whether a command may do something to the pools of an identity. -/
def Command.Concerns : Command → Identity → Prop
  | select key _, i => key.identity = i
  | close j _, i | closeIdentity j, i => j = i
  | release .., _ | tell _, _ => False
  | tick, _ | closeAll, _ | evictIdle, _ | shutDown, _ | inPool .., _ => True

theorem Command.Closes.concerns {k : Command} {i : Identity} (h : k.Closes i) : k.Concerns i := by
  cases k <;> simp_all [Command.Closes, Command.Concerns]

/-! ### The pools of the directory -/

namespace State

/-- The pools of the directory are those of their keys, and every other pool is closed. -/
structure Filed (s : State) : Prop where
  served : ∀ key id, Keyed.get? s.directory key = some id →
    ∃ p, s.pools[id]? = some p ∧ p.source.Serves s.factory key
  closed : ∀ (id : Nat) p, s.pools[id]? = some p → (∀ key, Keyed.get? s.directory key ≠ some id) →
    p.pool.closed = true

/-- What stays as it was: pools are never lost, keep their source and stay closed, and the
directory gets no other pools than new ones. -/
structure Older (s s' : State) : Prop where
  factory : s'.factory = s.factory
  length : s.pools.length ≤ s'.pools.length
  pools : ∀ (id : Nat) (p : HandlePool), s.pools[id]? = some p → ∃ p' : HandlePool,
    s'.pools[id]? = some p' ∧ p'.source = p.source ∧ (p.pool.closed = true → p'.pool.closed = true)
  directory : ∀ key id, Keyed.get? s'.directory key = some id →
    Keyed.get? s.directory key = some id ∨ s.pools.length ≤ id

/-- The pools of an identity, idle objects and all, are as they were. -/
structure Spares (i : Identity) (s s' : State) : Prop where
  pools : ∀ (id : Nat) (p : HandlePool), s.pools[id]? = some p → p.source.identity = i →
    s'.pools[id]? = some p
  directory : ∀ key, key.identity = i → Keyed.get? s'.directory key = Keyed.get? s.directory key

theorem Spares.refl (i : Identity) (s : State) : Spares i s s :=
  ⟨fun _ _ hp _ => hp, fun _ _ => rfl⟩

theorem Spares.trans {i : Identity} {s s' s'' : State} (h : Spares i s s') (h' : Spares i s' s'') :
    Spares i s s'' where
  pools id p hp hsource := h'.pools id p (h.pools id p hp hsource) hsource
  directory key hkey := (h'.directory key hkey).trans (h.directory key hkey)

theorem Older.refl (s : State) : s.Older s :=
  ⟨rfl, Nat.le_refl _, fun _ p hp => ⟨p, hp, rfl, id⟩, fun _ _ h => .inl h⟩

theorem Older.attached (s : State) (observers : List Observer) :
    s.Older { s with observers } :=
  ⟨rfl, Nat.le_refl _, fun _ p hp => ⟨p, hp, rfl, id⟩, fun _ _ h => .inl h⟩

theorem Older.trans {s s' s'' : State} (h : s.Older s') (h' : s'.Older s'') : s.Older s'' where
  factory := h'.factory.trans h.factory
  length := Nat.le_trans h.length h'.length
  pools id p hp := by
    obtain ⟨p', hp', hsource, hclosed⟩ := h.pools id p hp
    obtain ⟨p'', hp'', hsource', hclosed'⟩ := h'.pools id p' hp'
    exact ⟨p'', hp'', hsource'.trans hsource, fun hc => hclosed' (hclosed hc)⟩
  directory key id hid := by
    rcases h'.directory key id hid with hold | hnew
    · exact h.directory key id hold
    · exact .inr (Nat.le_trans h.length hnew)

/-- The state without a key in its directory. -/
def without (s : State) (key : PoolKey) : State :=
  { s with directory := Keyed.erase s.directory key }

theorem get?_without (s : State) (key other : PoolKey) :
    Keyed.get? (s.without key).directory other =
      if key = other then none else Keyed.get? s.directory other :=
  Keyed.get?_erase s.directory key other

theorem older_without (s : State) (key : PoolKey) : s.Older (s.without key) where
  factory := rfl
  length := Nat.le_refl _
  pools _ p hp := ⟨p, hp, rfl, fun hc => hc⟩
  directory other id hid := by
    rw [get?_without] at hid
    split at hid
    · cases hid
    · exact .inl hid

section settle
variable {s : State} {id j : Nat} {step : Pool.Step Handle} {p q : HandlePool}

theorem pools_settle_self (hp : s.pools[id]? = some p) :
    (s.settle id step).pools[id]? = some { p with pool := step.pool } := by
  simp [settle, hp]

theorem pools_settle_of_ne (h : id ≠ j) : (s.settle id step).pools[j]? = s.pools[j]? := by
  simp [settle, h]

theorem pools_settle_cases (hp : s.pools[id]? = some p)
    (hq : (s.settle id step).pools[j]? = some q) :
    j = id ∧ q = { p with pool := step.pool } ∨ j ≠ id ∧ s.pools[j]? = some q := by
  by_cases h : id = j
  · subst h
    rw [pools_settle_self hp] at hq
    exact .inl ⟨rfl, (Option.some.inj hq).symm⟩
  · rw [pools_settle_of_ne h] at hq
    exact .inr ⟨fun heq => h heq.symm, hq⟩

theorem older_settle (hp : s.pools[id]? = some p)
    (hc : p.pool.closed = true → step.pool.closed = true) : s.Older (s.settle id step) where
  factory := rfl
  length := by simp [settle]
  pools j q hq := by
    by_cases h : id = j
    · subst h
      rw [hp] at hq
      cases hq
      exact ⟨_, pools_settle_self hp, rfl, hc⟩
    · exact ⟨q, by rwa [pools_settle_of_ne h], rfl, fun hc => hc⟩
  directory key j hj := .inl hj

end settle

theorem getElem?_concat_cases {pools : List HandlePool} {j : Nat} {p q : HandlePool}
    (hq : (pools ++ [p])[j]? = some q) : pools[j]? = some q ∨ j = pools.length ∧ q = p := by
  rcases Nat.lt_trichotomy j pools.length with h | h | h
  · rw [List.getElem?_append_left h] at hq
    exact .inl hq
  · subst h
    rw [List.getElem?_concat_length] at hq
    exact .inr ⟨rfl, (Option.some.inj hq).symm⟩
  · rw [List.getElem?_eq_none (by simp; omega)] at hq
    cases hq

end State

/-! ### Stages -/

/-- A manager in the middle of an operation. -/
structure Stage where
  state : State
  /-- Which objects of which pools the operation may have in hand. -/
  hand : Nat → Item Handle → Prop

/-- The object is idle in the pool, or in hand and of the pool. -/
def Stage.Has (g : Stage) (id : Nat) (x : Item Handle) : Prop :=
  g.hand id x ∨ ∃ p, g.state.pools[id]? = some p ∧ x ∈ p.pool.items

/-- One change that an operation `k` makes. -/
inductive Change (k : Command) : Stage → Stage → Prop
  /-- Something is written down. -/
  | note (g : Stage) (journal : Journal) :
      Change k g ⟨{ g.state with journal }, g.hand⟩
  /-- The operation has less in hand. -/
  | drop (g : Stage) (hand : Nat → Item Handle → Prop) (h : ∀ id x, hand id x → g.hand id x) :
      Change k g ⟨g.state, hand⟩
  /-- A pool makes a step. -/
  | work (g : Stage) (id : Nat) (p : HandlePool) (step : Pool.Step Handle)
      (hp : g.state.pools[id]? = some p) (hk : k.Concerns p.source.identity)
      (hs : step.Follows p.pool (g.hand id)) :
      Change k g ⟨g.state.settle id step, fun j x => j = id ∧ x ∈ step.items⟩
  /-- A pool is removed from the directory and closed. -/
  | remove (g : Stage) (key : PoolKey) (id : Nat) (p : HandlePool)
      (hkey : Keyed.get? g.state.directory key = some id) (hp : g.state.pools[id]? = some p)
      (hk : k.Closes key.identity) :
      Change k g ⟨(g.state.without key).settle id p.pool.close,
        fun j x => j = id ∧ x ∈ p.pool.close.items⟩
  /-- A pool is founded. -/
  | found (g : Stage) (key : PoolKey) (produces : Channel)
      (hkey : Keyed.get? g.state.directory key = none)
      (hproduces : g.state.factory.produces? key.channel = some produces)
      (hk : k.Concerns key.identity) :
      Change k g ⟨{ g.state with
        directory := Keyed.put g.state.directory key g.state.pools.length
        pools := g.state.pools ++ [.ofKey g.state.settings key produces] }, g.hand⟩

/-- The changes that an operation makes one after the other. -/
abbrev Trail (k : Command) : Stage → Stage → Prop := Relation.ReflTransGen (Change k)

section changes
variable {k : Command} {g g' : Stage}

theorem follows_close (p : Pool Handle) (hand : Item Handle → Prop) :
    p.close.Follows p hand :=
  (Pool.conserves_start p 0 .close).follows.mono fun x hx => by cases hx

theorem Change.older (h : Change k g g') : g.state.Older g'.state := by
  cases h with
  | note journal => exact ⟨rfl, Nat.le_refl _, fun _ p hp => ⟨p, hp, rfl, id⟩, fun _ _ h => .inl h⟩
  | drop hand h => exact .refl _
  | work id p step hp hk hs => exact State.older_settle hp hs.closed
  | remove key id p hkey hp hk =>
    exact (State.older_without _ key).trans
      (State.older_settle hp (follows_close p.pool fun _ => False).closed)
  | found key produces hkey hproduces hk =>
    refine ⟨rfl, by simp, fun j p hp => ⟨p, ?_, rfl, fun hc => hc⟩, fun other j hj => ?_⟩
    · rw [List.getElem?_append_left (List.getElem?_eq_some_iff.mp hp).1]
      exact hp
    · rw [Keyed.get?_put] at hj
      split at hj
      · cases hj
        exact .inr (Nat.le_refl _)
      · exact .inl hj

/-- Objects keep the pool they are of, and nothing comes from nowhere. -/
theorem Change.has (h : Change k g g') {id : Nat} {x : Item Handle} (hx : g'.Has id x) :
    g.Has id x := by
  cases h with
  | note journal => exact hx
  | drop hand h => exact hx.imp_left (h id x)
  | work j p step hp hk hs =>
    rcases hx with ⟨rfl, hx⟩ | ⟨q, hq, hx⟩
    · exact (hs.items x (.inl hx)).imp_right fun hx => ⟨p, hp, hx⟩
    · rcases State.pools_settle_cases hp hq with ⟨rfl, rfl⟩ | ⟨-, hq⟩
      · exact (hs.items x (.inr hx)).imp_right fun hx => ⟨p, hp, hx⟩
      · exact .inr ⟨q, hq, hx⟩
  | remove key j p hkey hp hk =>
    have hs := follows_close p.pool (g.hand j)
    rcases hx with ⟨rfl, hx⟩ | ⟨q, hq, hx⟩
    · exact (hs.items x (.inl hx)).imp_right fun hx => ⟨p, hp, hx⟩
    · rcases State.pools_settle_cases (s := g.state.without key) hp hq with ⟨rfl, rfl⟩ | ⟨-, hq⟩
      · exact (hs.items x (.inr hx)).imp_right fun hx => ⟨p, hp, hx⟩
      · exact .inr ⟨q, hq, hx⟩
  | found key produces hkey hproduces hk =>
    refine hx.imp_right fun ⟨q, hq, hx⟩ => ?_
    rcases State.getElem?_concat_cases hq with hq | ⟨-, rfl⟩
    · exact ⟨q, hq, hx⟩
    · cases hx

theorem State.Filed.work {s : State} (hs : s.Filed) {id : Nat} {p : HandlePool}
    (hp : s.pools[id]? = some p) {step : Pool.Step Handle}
    (hc : p.pool.closed = true → step.pool.closed = true) : (s.settle id step).Filed where
  served key j hj := by
    obtain ⟨q, hq, hserves⟩ := hs.served key j hj
    obtain ⟨q', hq', hsource, -⟩ := (older_settle hp hc).pools j q hq
    refine ⟨q', hq', ?_⟩
    rw [hsource]
    exact hserves
  closed j q hq hnone := by
    rcases pools_settle_cases hp hq with ⟨rfl, rfl⟩ | ⟨-, hq⟩
    · exact hc (hs.closed j p hp hnone)
    · exact hs.closed j q hq hnone

theorem Change.filed (h : Change k g g') (hg : g.state.Filed) : g'.state.Filed := by
  cases h with
  | note journal => exact ⟨hg.served, hg.closed⟩
  | drop hand h => exact hg
  | work id p step hp hk hs => exact hg.work hp hs.closed
  | remove key id p hkey hp hk =>
    constructor
    · intro other j hj
      have hj : Keyed.get? (g.state.without key).directory other = some j := hj
      rw [State.get?_without] at hj
      split at hj
      · cases hj
      · obtain ⟨q, hq, hserves⟩ := hg.served other j hj
        obtain ⟨q', hq', hsource, -⟩ :=
          (State.older_settle hp (follows_close p.pool fun _ => False).closed).pools j q hq
        refine ⟨q', hq', ?_⟩
        rw [hsource]
        exact hserves
    · intro j q hq hnone
      rcases State.pools_settle_cases (s := g.state.without key) hp hq with ⟨rfl, rfl⟩ | ⟨hne, hq⟩
      · exact Pool.closed_close p.pool
      · refine hg.closed j q hq fun other hother => hnone other ?_
        have hkeys : key ≠ other := by
          rintro rfl
          rw [hkey] at hother
          exact hne (Option.some.inj hother).symm
        show Keyed.get? (g.state.without key).directory other = some j
        rw [State.get?_without, if_neg hkeys]
        exact hother
  | found key produces hkey hproduces hk =>
    constructor
    · intro other j hj
      rw [Keyed.get?_put] at hj
      split at hj
      · rename_i heq
        cases hj
        subst heq
        exact ⟨_, List.getElem?_concat_length, rfl, rfl, hproduces⟩
      · obtain ⟨q, hq, hserves⟩ := hg.served other j hj
        refine ⟨q, ?_, hserves⟩
        rw [List.getElem?_append_left (List.getElem?_eq_some_iff.mp hq).1]
        exact hq
    · intro j q hq hnone
      rcases State.getElem?_concat_cases hq with hq | ⟨rfl, rfl⟩
      · refine hg.closed j q hq fun other hother => hnone other ?_
        have hkeys : key ≠ other := by
          rintro rfl
          rw [hkey] at hother
          cases hother
        rw [Keyed.get?_put_of_ne _ _ hkeys]
        exact hother
      · exact absurd (Keyed.get?_put_self _ _ _) (hnone key)

/-- The pools of an identity that the command does not concern stay as they are. -/
theorem Change.spares (h : Change k g g') (hg : g.state.Filed) {i : Identity}
    (hi : ¬ k.Concerns i) : State.Spares i g.state g'.state := by
  cases h with
  | note journal => exact ⟨fun _ _ hp _ => hp, fun _ _ => rfl⟩
  | drop hand h => exact .refl i _
  | work id p step hp hk hs =>
    refine ⟨fun j q hq hsource => ?_, fun _ _ => rfl⟩
    have hne : id ≠ j := by
      rintro rfl
      rw [hp] at hq
      cases hq
      exact hi (hsource ▸ hk)
    rw [State.pools_settle_of_ne hne]
    exact hq
  | remove key id p hkey hp hk =>
    obtain ⟨p', hp', hserves⟩ := hg.served key id hkey
    rw [hp] at hp'
    cases hp'
    have hother : ∀ i', i' = i → key.identity ≠ i' := by
      rintro i' rfl rfl
      exact hi hk.concerns
    refine ⟨fun j q hq hsource => ?_, fun other hidentity => ?_⟩
    · have hne : id ≠ j := by
        rintro rfl
        rw [hp] at hq
        cases hq
        exact hother _ hsource hserves.identity.symm
      rw [State.pools_settle_of_ne hne]
      exact hq
    · refine Keyed.get?_erase_of_ne _ ?_
      rintro rfl
      exact hother _ hidentity rfl
  | found key produces hkey hproduces hk =>
    refine ⟨fun j q hq hsource => ?_, fun other hidentity => ?_⟩
    · rw [List.getElem?_append_left (List.getElem?_eq_some_iff.mp hq).1]
      exact hq
    · refine Keyed.get?_put_of_ne _ _ ?_
      rintro rfl
      exact hi (hidentity ▸ hk)

theorem Trail.older (h : Trail k g g') : g.state.Older g'.state := by
  induction h with
  | refl => exact .refl _
  | tail _ hchange ih => exact ih.trans hchange.older

theorem Trail.has (h : Trail k g g') {id : Nat} {x : Item Handle} (hx : g'.Has id x) :
    g.Has id x := by
  induction h with
  | refl => exact hx
  | tail _ hchange ih => exact ih (hchange.has hx)

theorem Trail.filed (h : Trail k g g') (hg : g.state.Filed) : g'.state.Filed := by
  induction h with
  | refl => exact hg
  | tail _ hchange ih => exact hchange.filed ih

theorem Trail.spares (h : Trail k g g') (hg : g.state.Filed) {i : Identity}
    (hi : ¬ k.Concerns i) : State.Spares i g.state g'.state := by
  induction h with
  | refl => exact .refl i _
  | tail htrail hchange ih => exact ih.trans (hchange.spares (Trail.filed htrail hg) hi)

end changes

end Pooled

end ConnectionLeasing

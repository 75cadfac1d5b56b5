import ConnectionLeasing.Proofs.Affine.Renumbering

/-!
# Operations on different identities are independent

An operation does something for its own identity only, and all it needs of the manager besides is
the settings and the factory. So two operations for different identities come to the same in either
order, but for the numbers of the handles they build.

* `runs`: what an operation comes to for a manager at rest.
* `State.Upright.metrics_congr`: metrics are counted from what is held for the identities.
* `operations_commute`: the two orders.
-/

namespace ConnectionLeasing

theorem Call.length_attempts (calls : List Call) :
    (calls.filterMap Call.attempt?).length = calls.countP Call.builds := by
  rw [List.length_filterMap_eq_countP]
  refine List.countP_congr fun call _ => ?_
  cases call <;> rfl

theorem IdentityStatistics.total_perm {rows rows' : List IdentityStatistics} (h : rows'.Perm rows)
    (count : IdentityStatistics → Nat) : total count rows' = total count rows := by
  induction h with
  | nil => rfl
  | cons x _ ih => rw [total, total, ih]
  | swap x y rows =>
    simp only [total]
    omega
  | trans _ _ ih ih' => exact ih.trans ih'

/-- The row of an identity in the statistics. -/
def Holding.row (h : Holding) (i : Identity) : IdentityStatistics where
  host := i.host
  port := i.port
  username := i.username
  contexts := h.slots.length
  borrowed := h.slots.countP (·.2.borrowed)

@[simp] theorem Holding.row_renumber (ρ : Equiv.Perm Nat) (h : Holding) :
    (h.renumber ρ).row = h.row := by
  funext i
  rw [row, row, renumber, List.length_map, List.countP_map]
  rfl

namespace Affine

/-! ### What is seen of an operation -/

/-- What is seen of an operation. -/
structure Account where
  result : Result
  /-- The handles asked to disconnect. -/
  disconnected : List Handle
  /-- What connects were asked for. -/
  attempts : List (Channel × Identity × Duration)

def Account.renumber (ρ : Equiv.Perm Nat) (a : Account) : Account where
  result := a.result.renumber ρ
  disconnected := a.disconnected.map (·.renumber ρ)
  attempts := a.attempts

def Service.account (x : Service) : Account := ⟨x.result, x.deed.disconnected, x.deed.attempts⟩

/-- The operation comes to its end with nothing in between. It leaves the state `s'`, and `n'` as
the number of the next handle. -/
def Command.Runs (b : Behaviour) (now n : Nat) (s : State) (k : Command) (a : Account) (n' : Nat)
    (s' : State) : Prop :=
  ∃ calls, (start s now k).Performs b now n calls s' a.result ∧
    calls.filterMap Call.disconnected? = a.disconnected ∧
    calls.filterMap Call.attempt? = a.attempts ∧ n' = Call.next n calls

variable {s s' : State} {o : Occasion} {k : Command} {t : Telling} {ρ : Equiv.Perm Nat}

theorem Command.Runs.unique {b : Behaviour} {now n n₁ n₂ : Nat} {s₁ s₂ : State} {a a' : Account}
    (h : k.Runs b now n s a n₁ s₁) (h' : k.Runs b now n s a' n₂ s₂) :
    a' = a ∧ n₂ = n₁ ∧ s₂ = s₁ := by
  obtain ⟨calls, hperforms, hdisconnected, hattempts, rfl⟩ := h
  obtain ⟨calls', hperforms', hdisconnected', hattempts', rfl⟩ := h'
  obtain ⟨rfl, rfl, hresult⟩ := hperforms.unique hperforms'
  refine ⟨?_, rfl, rfl⟩
  obtain ⟨result, disconnected, attempts⟩ := a
  obtain ⟨result', disconnected', attempts'⟩ := a'
  cases hdisconnected
  cases hattempts
  cases hdisconnected'
  cases hattempts'
  cases hresult
  rfl

/-- The occasion after some handles were built. -/
def Occasion.later (o : Occasion) (built : Nat) : Occasion := { o with next := o.next + built }

/-- What an operation comes to for a manager at rest, which is at rest again afterwards. -/
theorem runs (hs : o.Meets s) (hk : k.telling? = some t) {x : Service}
    (hx : x = o.attends s.observers (s.holding t.announcement.identity) t) : ∃ s',
    k.Runs o.behaviour o.now o.next s x.account (o.next + x.deed.attempts.length) s' ∧
      s.Turns t.announcement.identity x.deed.holding x.deed.ledger s' ∧
      (o.later x.deed.attempts.length).Meets s' := by
  obtain ⟨calls, s', hperforms, hdisconnected, hattempts, hturns⟩ := does_start hs hk
  have hnumbered := Occasion.numbered_attends (hs.below t.announcement.identity) s.observers t
  rw [← hx] at hperforms hdisconnected hattempts hturns hnumbered
  have hbuilt : x.deed.attempts.length = calls.countP Call.builds := by
    rw [← hattempts, Call.length_attempts]
  refine ⟨s', ⟨calls, hperforms, hdisconnected, hattempts, by rw [hbuilt, Call.next]⟩, hturns, ?_⟩
  have hlater : (o.later x.deed.attempts.length).Meets s :=
    ⟨hs.upright, hs.settings, hs.factory, fun j p hp =>
      Nat.lt_of_lt_of_le (hs.below j p hp) (Nat.le_add_right _ _)⟩
  exact hlater.turns hturns hnumbered.below

/-! ### Metrics -/

theorem State.mem_keys_known (s : State) (i : Identity) :
    i ∈ Keyed.keys s.registry.known ↔ (s.holding i).known = true := by
  rw [← not_iff_not, ← Keyed.get?_eq_none_iff]
  show s.registry.entryId? i = none ↔ _
  cases hi : s.registry.entryId? i with
  | none => simp [State.holding_of_none hi]
  | some e => simp [State.holding_of_some hi]

theorem State.countP_shown {l : List (ContextId × Nat)} (hl : s.Present l) :
    (s.shown l).countP (·.2.borrowed) = l.countP fun p => s.slots[p.2]?.any (·.borrowed) := by
  induction l with
  | nil => rfl
  | cons k l ih =>
    obtain ⟨x, hx⟩ := hl k List.mem_cons_self
    have hslot : s.slots[k.2]?.any (·.borrowed) = x.borrowed := State.isLent_of_openSlot? hx
    rw [State.shown_cons hx, List.countP_cons, List.countP_cons, hslot,
      ih fun k' hk' => hl k' (List.mem_cons_of_mem _ hk')]

theorem State.Upright.statistics_eq (hs : s.Upright) :
    s.statistics = (Keyed.keys s.registry.known).map fun i => (s.holding i).row i := by
  rw [State.statistics, Registry.statistics, Keyed.keys, List.map_map]
  refine List.map_congr_left fun p hp => ?_
  have hpresent := (hs.live hp).present
  rw [Function.comp_apply, Holding.row, State.slots_holding ((hs.mem_known p).mp hp),
    State.length_shown hpresent, State.countP_shown hpresent]
  rfl

theorem State.Upright.metrics_congr (hs : s.Upright) (hs' : s'.Upright)
    (hledger : s'.ledger = s.ledger)
    (hholding : ∀ i, s'.holding i = (s.holding i).renumber ρ) : s'.metrics = s.metrics := by
  have hknown : (Keyed.keys s'.registry.known).Perm (Keyed.keys s.registry.known) := by
    refine (List.perm_ext_iff_of_nodup hs'.identities hs.identities).mpr fun i => ?_
    rw [s'.mem_keys_known, s.mem_keys_known, hholding]
    rfl
  have hrows : s'.statistics.Perm s.statistics := by
    rw [hs'.statistics_eq, hs.statistics_eq]
    refine (hknown.map _).trans (.of_eq (List.map_congr_left fun i _ => ?_))
    rw [hholding, Holding.row_renumber]
  rw [State.metrics, State.metrics, Metrics.ofStatistics, Metrics.ofStatistics, hledger,
    hrows.length_eq, IdentityStatistics.total_perm hrows, IdentityStatistics.total_perm hrows]

/-! ### Two orders -/

/-- How handles are numbered when the other operation comes first: if both open a connection, their
numbers are exchanged. -/
def exchange (n : Nat) (x y : Service) : Equiv.Perm Nat :=
  if x.deed.attempts ≠ [] ∧ y.deed.attempts ≠ [] then Equiv.swap n (n + 1)
  else Equiv.refl Nat

variable {n : Nat} {x y : Service}

theorem exchange_cases (n : Nat) (x y : Service) :
    exchange n x y = Equiv.refl Nat ∨ exchange n x y = Equiv.swap n (n + 1) := by
  rw [exchange]
  split
  · exact .inr rfl
  · exact .inl rfl

theorem exchange_of_lt {number : Nat} (h : number < n) : exchange n x y number = number := by
  rcases exchange_cases n x y with hρ | hρ <;> rw [hρ]
  · rfl
  · exact Equiv.swap_apply_of_ne_of_ne (by omega) (by omega)

theorem length_attempts_of_ne_nil (hx : x.Numbered n) (hne : x.deed.attempts ≠ []) :
    x.deed.attempts.length = 1 :=
  Nat.le_antisymm hx.once (List.length_pos_iff.mpr hne)

theorem exchange_first (hy : y.Numbered (n + x.deed.attempts.length))
    (hx : x.deed.attempts ≠ []) : n + y.deed.attempts.length = exchange n x y n := by
  rw [exchange]
  by_cases hne : y.deed.attempts = []
  · rw [if_neg fun h => h.2 hne, hne]
    rfl
  · rw [if_pos ⟨hx, hne⟩, length_attempts_of_ne_nil hy hne, Equiv.swap_apply_left]

theorem exchange_second (hx : x.Numbered n) (hy : y.deed.attempts ≠ []) :
    n = exchange n x y (n + x.deed.attempts.length) := by
  rw [exchange]
  by_cases hne : x.deed.attempts = []
  · rw [if_neg fun h => h.1 hne, hne]
    rfl
  · rw [if_pos ⟨hne, hy⟩, length_attempts_of_ne_nil hx hne, Equiv.swap_apply_right]

/-- **Operations on different identities are independent.** Take any manager of a run that is not
disconnecting anything, and two calls for different identities that nothing comes between. In either
order each of them comes to the same, the first one as if the other did not exist, and they leave
the same to every identity and the same metrics. Only the numbers of the handles that they build
may differ, each of which behaves as it does in the other order. -/
theorem operations_commute {m : System} (hm : Reachable .calm m)
    (hyields : ∀ p ∈ m.ongoing, p.frame.call.yields) (b : Behaviour) (now : Nat)
    (hnext : ∀ h ∈ m.built, h.number < n) {k k' : Command} {t t' : Telling}
    (hk : k.telling? = some t) (hk' : k'.telling? = some t')
    (hne : t.announcement.identity ≠ t'.announcement.identity) :
    ∃ (ρ : Equiv.Perm Nat) (a a' : Account) (n₁ n₂ n₁' n₂' : Nat) (s₁ s₂ s₁' s₂' : State),
      (k.Runs b now n m.state a n₁ s₁ ∧ k'.Runs b now n₁ s₁ a' n₂ s₂) ∧
      (k'.Runs (b.renumber ρ) now n m.state (a'.renumber ρ) n₁' s₁' ∧
        k.Runs (b.renumber ρ) now n₁' s₁' (a.renumber ρ) n₂' s₂') ∧
      n₂' = n₂ ∧ (ρ = Equiv.refl Nat ∨ ρ = Equiv.swap n (n + 1)) ∧
      (∀ i, s₂'.holding i = (s₂.holding i).renumber ρ) ∧ s₂'.metrics = s₂.metrics := by
  let o : Occasion := ⟨b, m.state.settings, m.state.factory, now, n⟩
  have hs : o.Meets m.state := hm.meets hyields rfl rfl hnext
  obtain ⟨x, hx⟩ : ∃ x, x =
    o.attends m.state.observers (m.state.holding t.announcement.identity) t := ⟨_, rfl⟩
  obtain ⟨s₁, hruns, hturns, hs₁⟩ := runs hs hk hx
  have hother := hturns.others _ hne.symm
  obtain ⟨y, hy⟩ : ∃ y, y = (o.later x.deed.attempts.length).attends m.state.observers
    (m.state.holding t'.announcement.identity) t' := ⟨_, rfl⟩
  obtain ⟨s₂, hruns', hturns', hs₂⟩ := runs hs₁ hk' (x := y) (by rw [hturns.observers, hother, hy])
  have hxn : x.Numbered n := hx ▸ Occasion.numbered_attends (hs.below _) _ _
  have hyn : y.Numbered (n + x.deed.attempts.length) :=
    hy ▸ Occasion.numbered_attends (hother ▸ hs₁.below _) _ _
  -- the other order
  let ρ := exchange n x y
  have hstays : ∀ i, (m.state.holding i).renumber ρ = m.state.holding i := fun i =>
    (hs.below i).renumber fun _ h => exchange_of_lt h
  let o' : Occasion := ⟨b.renumber ρ, m.state.settings, m.state.factory, now, n⟩
  have hs' : o'.Meets m.state := hm.meets hyields rfl rfl hnext
  have hy' : y.renumber ρ = o'.attends m.state.observers
      (m.state.holding t'.announcement.identity) t' := by
    have hsame : (o.later x.deed.attempts.length).Renumbers ρ o' := ⟨rfl, rfl, rfl, rfl⟩
    rw [← hstays, hsame.attends _ _ _ fun h => exchange_second hxn (hy ▸ h), ← hy]
  obtain ⟨s₁', hruns₂, hturns₂, hs₁'⟩ := runs hs' hk' hy'
  have hx' : x.renumber ρ = (o'.later y.deed.attempts.length).attends s₁'.observers
      (s₁'.holding t.announcement.identity) t := by
    have hsame : o.Renumbers ρ (o'.later y.deed.attempts.length) := ⟨rfl, rfl, rfl, rfl⟩
    rw [hturns₂.observers, hturns₂.others _ hne, ← hstays,
      hsame.attends _ _ _ fun h => exchange_first hyn (hx ▸ h), ← hx]
  obtain ⟨s₂', hruns₂', hturns₂', hs₂'⟩ := runs hs₁' hk hx'
  have hholding : ∀ i, s₂'.holding i = (s₂.holding i).renumber ρ := fun i => by
    by_cases hi : i = t.announcement.identity
    · rw [hi, hturns₂'.holding, hturns'.others _ hne, hturns.holding]
      rfl
    · by_cases hj : i = t'.announcement.identity
      · rw [hj, hturns₂'.others _ hne.symm, hturns₂.holding, hturns'.holding]
        rfl
      · rw [hturns₂'.others i hi, hturns₂.others i hj, hturns'.others i hj, hturns.others i hi, hstays]
  have hledger : s₂'.ledger = s₂.ledger := by
    rw [hturns₂'.ledger, hturns₂.ledger, hturns'.ledger, hturns.ledger, Ledger.add_assoc,
      Ledger.add_assoc]
    exact congrArg _ (Ledger.add_comm _ _)
  exact ⟨ρ, x.account, y.account, _, _, _, _, s₁, s₂, s₁', s₂', ⟨hruns, hruns'⟩, ⟨hruns₂, hruns₂'⟩,
    Nat.add_right_comm _ _ _, exchange_cases n x y, hholding,
    hs₂.upright.metrics_congr hs₂'.upright hledger hholding⟩

/-! ### Two borrows -/

/-- A borrow for the account of a user. -/
def userRequest (username : String) : Request := ⟨⟨"host", 22, username, "secret"⟩, ⟨1⟩, .sftp⟩

/-- A user has borrowed a first connection. -/
def servedOnce (username : String) : State :=
  (resume (start (.initial {} .faithful) 0 (.borrow (userRequest username))).1 0
    (.opening (userRequest username) 0 .sftp (.ofMillis 5000)) ⟨⟨1, .sftp⟩, none⟩).1

theorem runs_first (username : String) : (Command.borrow (userRequest username)).Runs .smooth 0 1
    (.initial {} .faithful)
    ⟨.lent ⟨1, .sftp⟩, [], [(.sftp, (userRequest username).identity, .ofMillis 5000)]⟩ 2
    (servedOnce username) :=
  ⟨[.connect .sftp (userRequest username).identity (.ofMillis 5000)], .paused (.done _ _ _), rfl,
    rfl, rfl⟩

theorem runs_second : ∃ s', (Command.borrow (userRequest "two")).Runs .smooth 0 2
    (servedOnce "one") ⟨.lent ⟨2, .sftp⟩, [], [(.sftp, (userRequest "two").identity, .ofMillis 5000)]⟩
    3 s' :=
  ⟨_, [.connect .sftp (userRequest "two").identity (.ofMillis 5000)], .paused (.done _ _ _), rfl,
    rfl, rfl⟩

/-- Two users borrow for the first time. Whoever comes first gets the handle with number one. -/
theorem operations_commute_two_users : ∃ (a a' : Account) (s₂ s₁' s₂' : State),
    ((Command.borrow (userRequest "one")).Runs .smooth 0 1 (.initial {} .faithful) a 2
        (servedOnce "one") ∧
      (Command.borrow (userRequest "two")).Runs .smooth 0 2 (servedOnce "one") a' 3 s₂) ∧
    ((Command.borrow (userRequest "two")).Runs .smooth 0 1 (.initial {} .faithful)
        (a'.renumber (.swap 1 2)) 2 s₁' ∧
      (Command.borrow (userRequest "one")).Runs .smooth 0 2 s₁' (a.renumber (.swap 1 2)) 3 s₂') ∧
    a.result = .lent ⟨1, .sftp⟩ ∧ a'.result = .lent ⟨2, .sftp⟩ ∧ s₂'.metrics = s₂.metrics := by
  have htells : (Command.borrow (userRequest "one")).telling? = some _ := rfl
  have htells' : (Command.borrow (userRequest "two")).telling? = some _ := rfl
  obtain ⟨ρ, a, a', n₁, n₂, n₁', n₂', s₁, s₂, s₁', s₂', ⟨hone, htwo⟩, ⟨htwo', hone'⟩, hn, hρ, -,
    hmetrics⟩ := operations_commute (n := 1) (.initial {} .faithful 0)
      (fun p hp => absurd hp List.not_mem_nil) .smooth 0 (fun h hh => absurd hh List.not_mem_nil)
      htells htells' (by decide)
  obtain ⟨rfl, rfl, rfl⟩ := (runs_first "one").unique hone
  obtain ⟨s, hs⟩ := runs_second
  obtain ⟨rfl, rfl, rfl⟩ := hs.unique htwo
  obtain ⟨ha', rfl, rfl⟩ := (runs_first "two").unique htwo'
  rcases hρ with rfl | rfl
  · cases ha'
  · cases hn
    exact ⟨_, _, _, _, _, ⟨hone, htwo⟩, ⟨htwo', hone'⟩, rfl, rfl, hmetrics⟩

end Affine

end ConnectionLeasing

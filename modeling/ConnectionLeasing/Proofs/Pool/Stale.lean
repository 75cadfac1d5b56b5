import ConnectionLeasing.Proofs.Pool.Alone

/-!
# Borrowing past stale objects

A borrow takes idle objects from the front of the queue, and destroys them, until one is neither
expired nor invalid. Only if none is left it makes another one, and the room that the destroyed
objects have left counts.

* `look_stale`, `look_fresh`: what comes of one object that is taken from the queue.
* `settles_lend`: by induction on the queue, what the search comes to from any pool.
* `tryBorrow_exact`: the borrow as a whole.
-/

namespace ConnectionLeasing.Pool

variable {α : Type}

/-! ### Stale objects -/

/-- Whether an idle object is expired or no longer valid. -/
def stale (p : Pool α) (b : Replies α) (now : Nat) (x : IdleItem α) : Bool :=
  p.expired x now || !b.valid x.toItem

/-- The callbacks it takes to look at an idle object, and to get rid of it if it is stale: an
expired object is not asked after. -/
def examination (p : Pool α) (b : Replies α) (now : Nat) (x : IdleItem α) : List (Callback α) :=
  (if p.expired x now then [] else [.validate x.toItem]) ++
    if p.stale b now x then [.destroy x.toItem] else []

section stale
variable {p q : Pool α} {b : Replies α} {now : Nat} {x : IdleItem α}

theorem stale_congr (h : q.settings = p.settings) (b : Replies α) (now : Nat) :
    q.stale b now = p.stale b now := by
  funext x
  rw [stale, stale, expired, expired, h]

theorem examination_congr (h : q.settings = p.settings) (b : Replies α) (now : Nat) :
    q.examination b now = p.examination b now := by
  funext x
  rw [examination, examination, expired, expired, stale_congr h, h]

theorem examination_of_expired (h : p.expired x now = true) :
    p.examination b now x = [.destroy x.toItem] := by
  simp [stale, examination, h]

theorem examination_of_invalid (h : p.expired x now = false) (hvalid : b.valid x.toItem = false) :
    p.examination b now x = [.validate x.toItem, .destroy x.toItem] := by
  simp [stale, examination, h, hvalid]

theorem stale_eq_false :
    p.stale b now x = false ↔ p.expired x now = false ∧ b.valid x.toItem = true := by
  simp [stale]

theorem examination_of_fresh (h : p.stale b now x = false) :
    p.examination b now x = [.validate x.toItem] := by
  simp [examination, h, (stale_eq_false.mp h).1]

end stale

/-! ### Looking at an idle object -/

/-- Takes an idle object from the queue: it is destroyed right away, or it has to be validated. -/
def look (p : Pool α) (x : IdleItem α) (idle : List (IdleItem α)) (now : Nat) (c : Check α)
    (d : Disposal α) (notes : List Note) : Step α :=
  if p.expired x now then { p with idle }.await (.destroying x.toItem d) notes
  else { p with idle }.await (.checking c) []

theorem lend_cons {p : Pool α} {x : IdleItem α} {idle : List (IdleItem α)} (hp : p.idle = x :: idle)
    (start : Nat) :
    p.lend start = p.look x idle start (.lending x start) (.stale start) [.stale x.id] := by
  rw [lend, hp]
  rfl

section look
variable {b : Replies α} {below : List (Frame α)} {guards gone : List (Item α)}
  {calls : List (Callback α)} {p : Pool α} {m m₁ : System α} {x : IdleItem α}
  {idle : List (IdleItem α)} {c : Check α} {d : Disposal α} {notes : List Note}

theorem look_stale (hc : c.item = x.toItem)
    (hd : ∀ q : Pool α, q.resumeChecking m.now false c = q.await (.destroying x.toItem d) notes)
    (hstale : p.stale b m.now x = true)
    (h : m.Underway below guards calls gone (p.look x idle m.now c d notes) m₁) :
    ∃ m₂, m.Underway below guards (calls ++ p.examination b m.now x) (gone ++ [x.toItem])
        ({ p with idle }.bookDestroyed.resumeDestroying d) m₂ ∧
      ∀ r m', Settles b.reaction below ({ p with idle }.bookDestroyed.resumeDestroying d).next m₂
        r m' → Settles b.reaction below (p.look x idle m.now c d notes).next m₁ r m' := by
  cases hexpired : p.expired x m.now with
  | true =>
    have hlook : p.look x idle m.now c d notes =
        { p with idle }.await (.destroying x.toItem d) notes := if_pos hexpired
    rw [hlook] at h ⊢
    rw [examination_of_expired hexpired]
    exact ⟨_, h.resume (), fun r m' hsettles => h.answered rfl hsettles⟩
  | false =>
    have hlook : p.look x idle m.now c d notes = { p with idle }.await (.checking c) [] :=
      if_neg (Bool.eq_false_iff.mp hexpired)
    have hvalid : b.valid x.toItem = false := by
      rw [stale, hexpired] at hstale
      simpa using hstale
    have hanswer : b.reaction m₁ (.checking c) = false := by
      rw [← hvalid, ← hc]
      rfl
    have hresume : { p with idle }.resume m.now (.checking c) false =
        { p with idle }.await (.destroying x.toItem d) notes := hd _
    rw [hlook] at h ⊢
    have hinvalid := h.resume false
    rw [hresume, Frame.dismissed, List.append_nil] at hinvalid
    have hgone := hinvalid.resume ()
    rw [List.append_assoc calls] at hgone
    have hcalls : p.examination b m.now x = [.validate c.item, .destroy x.toItem] := by
      rw [examination_of_invalid hexpired hvalid, hc]
    rw [hcalls]
    refine ⟨_, hgone, fun r m' hsettles => h.answered hanswer ?_⟩
    rw [hresume]
    exact hinvalid.answered rfl hsettles

theorem look_fresh (hc : c.item = x.toItem) (hfresh : p.stale b m.now x = false)
    (h : m.Underway below guards calls gone (p.look x idle m.now c d notes) m₁) :
    ∃ m₂, m.Underway below guards (calls ++ p.examination b m.now x) gone
        ({ p with idle }.resumeChecking m.now true c) m₂ ∧
      ∀ r m', Settles b.reaction below ({ p with idle }.resumeChecking m.now true c).next m₂ r m' →
        Settles b.reaction below (p.look x idle m.now c d notes).next m₁ r m' := by
  obtain ⟨hexpired, hvalid⟩ := stale_eq_false.mp hfresh
  have hlook : p.look x idle m.now c d notes = { p with idle }.await (.checking c) [] :=
    if_neg (Bool.eq_false_iff.mp hexpired)
  have hanswer : b.reaction m₁ (.checking c) = true := by
    rw [← hvalid, ← hc]
    rfl
  rw [hlook] at h ⊢
  refine ⟨_, ?_, fun r m' hsettles => h.answered hanswer hsettles⟩
  have hvalidated := h.resume true
  rw [Frame.dismissed, List.append_nil] at hvalidated
  rw [examination_of_fresh hfresh, ← hc]
  exact hvalidated

end look

/-! ### The stale objects at the front of the queue -/

/-- The longest part of the queue, from its front, of which all objects are stale. -/
def front (p : Pool α) (b : Replies α) (now : Nat) : List (IdleItem α) :=
  p.idle.takeWhile (p.stale b now)

/-- The pool after `n` idle objects from the front of the queue were destroyed. -/
def discard (p : Pool α) (n : Nat) : Pool α where
  name := p.name
  settings := p.settings
  idle := p.idle.drop n
  total := p.total - n
  created := p.created
  destroyed := p.destroyed + n
  nextId := p.nextId
  closed := p.closed
  signals := p.signals + n

section front
variable {p : Pool α} {b : Replies α} {now : Nat} {x : IdleItem α} {idle : List (IdleItem α)}

theorem front_of_empty (hp : p.idle = []) : p.front b now = [] := by
  rw [front, hp, List.takeWhile_nil]

theorem front_of_fresh (hp : p.idle = x :: idle) (hx : p.stale b now x = false) :
    p.front b now = [] := by
  rw [front, hp, List.takeWhile_cons_of_neg (by simp [hx])]

theorem front_of_stale (hp : p.idle = x :: idle) (hx : p.stale b now x = true) :
    p.front b now = x :: ({ p with idle }.bookDestroyed).front b now := by
  rw [front, hp, List.takeWhile_cons_of_pos hx]
  rfl

theorem discard_zero (p : Pool α) : p.discard 0 = p := rfl

theorem discard_front_of_empty (hp : p.idle = []) : p.discard (p.front b now).length = p := by
  rw [front_of_empty hp]
  exact p.discard_zero

theorem discard_succ (hp : p.idle = x :: idle) (n : Nat) :
    p.discard (n + 1) = ({ p with idle }.bookDestroyed).discard n := by
  have htotal : p.total - (n + 1) = p.total - 1 - n := by omega
  have hdestroyed : p.destroyed + (n + 1) = p.destroyed + 1 + n := by omega
  have hsignals : p.signals + (n + 1) = p.signals + 1 + n := by omega
  simp only [discard, bookDestroyed, signal, hp, List.drop_succ_cons, htotal, hdestroyed, hsignals]

theorem front_append_discard (p : Pool α) (b : Replies α) (now : Nat) :
    p.front b now ++ (p.discard (p.front b now).length).idle = p.idle := by
  have hprefix : p.front b now <+: p.idle := List.takeWhile_prefix _
  obtain ⟨rest, hrest⟩ := hprefix
  rw [discard, ← hrest, List.drop_left]

end front

/-! ### What a borrow comes to -/

/-- How a borrow is served from a pool with no stale object at the front of its queue: the
callbacks it makes, its result, and the pool it leaves. -/
inductive Served (b : Replies α) (p : Pool α) : List (Callback α) → Result α → Pool α → Prop
  /-- The next idle object is lent, and those behind it stay as they are. -/
  | idle {x : IdleItem α} {queue : List (IdleItem α)} (hp : p.idle = x :: queue) :
      Served b p [.validate x.toItem] (.lent x.toItem) { p with idle := queue }
  /-- There is room, and another object is made. -/
  | made {value : α} (hp : p.idle = []) (hroom : p.total < p.settings.maxSize)
      (hmade : b.made = .ok value) :
      Served b p [.create] (.lent ⟨p.nextId, value⟩)
        { p with total := p.total + 1, nextId := p.nextId + 1, created := p.created + 1 }
  /-- There is room, but no object can be made; the room is given back. -/
  | unmade {e : LeaseError} (hp : p.idle = []) (hroom : p.total < p.settings.maxSize)
      (hmade : b.made = .error e) : Served b p [.create] (.failed e) p.signal
  | exhausted (hp : p.idle = []) (hfull : p.settings.maxSize ≤ p.total) :
      Served b p [] .exhausted p

section served
variable {b : Replies α} {p q : Pool α} {calls : List (Callback α)} {r : Result α}

theorem Served.create_mem_iff (h : Served b p calls r q) :
    .create ∈ calls ↔ p.idle = [] ∧ p.total < p.settings.maxSize := by
  cases h with
  | idle hp => simp [hp]
  | made hp hroom => simp [hp, hroom]
  | unmade hp hroom => simp [hp, hroom]
  | exhausted hp hfull => simp [hfull]

theorem Served.eq_exhausted_iff (h : Served b p calls r q) :
    r = .exhausted ↔ p.idle = [] ∧ p.settings.maxSize ≤ p.total := by
  cases h with
  | idle hp => simp [hp]
  | made hp hroom => simp [hroom]
  | unmade hp hroom => simp [hroom]
  | exhausted hp hfull => simp [hp, hfull]

theorem Served.of_cons {x : IdleItem α} {queue : List (IdleItem α)} (h : Served b p calls r q)
    (hp : p.idle = x :: queue) :
    calls = [.validate x.toItem] ∧ r = .lent x.toItem ∧ q = { p with idle := queue } := by
  cases h with
  | idle hq =>
    rw [hp] at hq
    obtain ⟨rfl, rfl⟩ := List.cons.inj hq
    exact ⟨rfl, rfl, rfl⟩
  | made hq | unmade hq | exhausted hq =>
    rw [hp] at hq
    cases hq

theorem Served.of_exhausted (h : Served b p calls .exhausted q) : calls = [] ∧ q = p := by
  cases h with
  | exhausted => exact ⟨rfl, rfl⟩

end served

section lend
variable {b : Replies α} {below : List (Frame α)} {guards gone : List (Item α)}
  {before : List (Callback α)} {p : Pool α} {m m₁ : System α}

theorem settles_lend {idle : List (IdleItem α)} (hp : p.idle = idle)
    (h : m.Underway below guards before gone (p.lend m.now) m₁) :
    ∃ calls r q notes m', Settles b.reaction below (p.lend m.now).next m₁ r m' ∧
      Served b (p.discard (p.front b m.now).length) calls r q ∧
      m.Underway below guards
        (before ++ ((p.front b m.now).flatMap (p.examination b m.now) ++ calls))
        (gone ++ (p.front b m.now).map (·.toItem)) (q.finish r notes) m' := by
  induction idle generalizing p m₁ before gone with
  | nil =>
    simp only [front_of_empty hp, List.flatMap_nil, List.nil_append, List.map_nil,
      List.append_nil, List.length_nil, discard_zero]
    by_cases hroom : p.total < p.settings.maxSize
    · have hlend : p.lend m.now = { p with total := p.total + 1 }.await .creating [] := by
        rw [lend, hp]
        exact if_pos hroom
      rw [hlend] at h ⊢
      cases hmade : b.made with
      | ok value =>
        have hdone := h.resume (.ok value)
        rw [Frame.dismissed, List.append_nil] at hdone
        exact ⟨_, _, _, _, _, h.answered hmade (.done _ _), .made hp hroom hmade, hdone⟩
      | error e =>
        have hdone := h.resume (.error e)
        rw [Frame.dismissed, List.append_nil] at hdone
        exact ⟨_, _, _, _, _, h.answered hmade (.done _ _), .unmade hp hroom hmade, hdone⟩
    · have hlend : p.lend m.now = p.finish .exhausted [] := by
        rw [lend, hp]
        exact if_neg hroom
      rw [hlend] at h ⊢
      refine ⟨[], _, p, [], _, .done _ _, .exhausted hp (Nat.le_of_not_lt hroom), ?_⟩
      rw [List.append_nil]
      exact h
  | cons x idle ih =>
    rw [lend_cons hp] at h ⊢
    cases hx : p.stale b m.now x with
    | true =>
      obtain ⟨m₂, hm₂, hgoes⟩ := look_stale rfl (fun _ => rfl) hx h
      obtain ⟨calls, r, q, notes, m', hsettles, hserved, hdone⟩ :=
        ih (p := { p with idle }.bookDestroyed) rfl hm₂
      have hsame : ({ p with idle }.bookDestroyed).examination b m.now = p.examination b m.now :=
        examination_congr rfl b m.now
      rw [hsame] at hdone
      rw [front_of_stale hp hx, List.length_cons, discard_succ hp]
      refine ⟨calls, r, q, notes, m', hgoes r m' hsettles, hserved, ?_⟩
      simpa using hdone
    | false =>
      obtain ⟨m₂, hm₂, hgoes⟩ := look_fresh rfl hx h
      rw [front_of_fresh hp hx]
      refine ⟨_, _, _, [], m₂, hgoes _ _ (.done _ _), .idle hp, ?_⟩
      rw [examination_of_fresh hx] at hm₂
      rw [List.map_nil, List.append_nil]
      exact hm₂

end lend

/-! ### Borrowing -/

section borrow
variable {R : Regime α} {m : System α}

theorem System.Balances.nodup_destroyed (hb : m.Balances) {gone : List (IdleItem α)}
    (hgone : gone.Sublist m.pool.idle) :
    ((m.destroyed ++ gone.map (·.toItem)).map (·.id)).Nodup := by
  have hitems : (gone.map (·.toItem)).Sublist (m.hands ++ (m.guards ++ m.pool.items)) :=
    List.sublist_append_of_sublist_right
      (List.sublist_append_of_sublist_right (hgone.map (·.toItem)))
  have hplaced := (hb.placed.map (·.id)).nodup_iff.mpr hb.nodup
  exact hplaced.sublist ((hitems.append_left m.destroyed).map (·.id))

theorem System.Balances.idle_of_full (hb : m.Balances) {gone : List (IdleItem α)}
    (hgone : gone.Sublist m.pool.idle)
    (hrest : (m.pool.discard gone.length).idle = [])
    (hfull : m.pool.settings.maxSize ≤ (m.pool.discard gone.length).total) :
    m.pool.idle = [] := by
  have htotal := hb.total
  have hbound := hb.bound
  have hlength := hgone.length_le
  have hleft : m.pool.idle.drop gone.length = [] := hrest
  have hroom : m.pool.settings.maxSize ≤ m.pool.total - gone.length := hfull
  rw [List.drop_eq_nil_iff] at hleft
  rw [← List.length_eq_zero_iff]
  omega

variable [DecidableEq α]

theorem run_tryBorrow (hopen : m.pool.closed = false) (b : Replies α) :
    let gone := m.pool.front b m.now
    ∃ calls r q notes m', (Conduct.alone b.reaction).run m .tryBorrow = (r, m') ∧
      Served b (m.pool.discard gone.length) calls r q ∧
      m.Underway m.ongoing m.guards (gone.flatMap (m.pool.examination b m.now) ++ calls)
        (gone.map (·.toItem)) (q.finish r notes) m' := by
  have hstart : start m.pool m.now .tryBorrow = m.pool.lend m.now := by
    rw [start, tryBorrow, if_neg (Bool.eq_false_iff.mp hopen)]
  have hstarted := m.underway_started .tryBorrow m.guards
  rw [hstart] at hstarted
  obtain ⟨calls, r, q, notes, m', hsettles, hserved, hdone⟩ := settles_lend (b := b) rfl hstarted
  rw [← hstart] at hsettles
  exact ⟨calls, r, q, notes, m', hsettles.run_eq, hserved, hdone⟩

/-- **A borrow destroys the stale objects at the front of the queue and nothing else.** It lends the
next object, whatever is behind it; only if none is left it makes another, and then the room of the
destroyed ones counts, so that stale objects never make a pool look exhausted. -/
theorem tryBorrow_exact (hm : Reachable R m) (hopen : m.pool.closed = false) (b : Replies α) :
    let gone := m.pool.front b m.now
    let rest := m.pool.discard gone.length
    gone ++ rest.idle = m.pool.idle ∧ rest.total + gone.length = m.pool.total ∧
    ∃ calls r m', (Conduct.alone b.reaction).run m .tryBorrow = (r, m') ∧
      m'.calls = m.calls ++ (gone.flatMap (m.pool.examination b m.now) ++ calls) ∧
      m'.destroyed = m.destroyed ++ gone.map (·.toItem) ∧ (m'.destroyed.map (·.id)).Nodup ∧
      Served b rest calls r m'.pool ∧
      m'.guards = lent (.done r) ++ m.guards ∧ m'.ongoing = m.ongoing ∧ m'.now = m.now ∧
      (.create ∈ calls ↔ rest.idle = [] ∧ rest.total < m.pool.settings.maxSize) ∧
      (r = .exhausted ↔ m.pool.idle = [] ∧ m.pool.settings.maxSize ≤ m.pool.total) ∧
      (r = .exhausted → m'.pool = m.pool ∧ m'.calls = m.calls ∧ m'.guards = m.guards) := by
  intro gone rest
  have hb := hm.balances
  have hprefix : gone.Sublist m.pool.idle := (List.takeWhile_prefix _).sublist
  have hsplit : gone ++ rest.idle = m.pool.idle := front_append_discard m.pool b m.now
  have hcount : rest.total + gone.length = m.pool.total := by
    have htotal := hb.total
    have hlength := hprefix.length_le
    have hrest : rest.total = m.pool.total - gone.length := rfl
    omega
  obtain ⟨calls, r, q, notes, m', hrun, hserved, hdone⟩ := run_tryBorrow hopen b
  replace hserved : Served b rest calls r q := hserved
  have hdestroyed : m'.destroyed = m.destroyed ++ gone.map (·.toItem) := hdone.destroyed
  have hpool : m'.pool = q := hdone.pool
  have hcalls : m'.calls =
      m.calls ++ (gone.flatMap (m.pool.examination b m.now) ++ calls) := hdone.calls_eq
  -- an exhausted pool had nothing idle to begin with
  have hempty : r = .exhausted → m.pool.idle = [] := by
    intro hr
    obtain ⟨hidle, hfull⟩ := hserved.eq_exhausted_iff.mp hr
    exact hb.idle_of_full hprefix hidle hfull
  have hsame : m.pool.idle = [] → rest = m.pool := fun hidle => discard_front_of_empty hidle
  refine ⟨hsplit, hcount, calls, r, m', hrun, hcalls, hdestroyed, ?_, ?_,
    hdone.guards, hdone.ongoing, hdone.now, hserved.create_mem_iff, ?_, ?_⟩
  · rw [hdestroyed]
    exact hb.nodup_destroyed hprefix
  · rw [hpool]
    exact hserved
  · constructor
    · intro hr
      rw [hsame (hempty hr)] at hserved
      exact hserved.eq_exhausted_iff.mp hr
    · rintro ⟨hidle, hfull⟩
      rw [hsame hidle] at hserved
      exact hserved.eq_exhausted_iff.mpr ⟨hidle, hfull⟩
  · intro hr
    have hgone : gone = [] := front_of_empty (hempty hr)
    have hguards := hdone.guards
    rw [hr] at hserved hguards
    obtain ⟨hnone, hq⟩ := hserved.of_exhausted
    refine ⟨?_, ?_, hguards⟩
    · rw [hpool, hq, hsame (hempty hr)]
    · rw [hcalls, hgone, hnone]
      simp

end borrow

/-! ### A pool of three objects -/

/-- An object is made and lent. -/
def System.lend (m : System Nat) (value : Nat) : System Nat :=
  (m.started .tryBorrow m.guards).resumed .creating (.ok value) []

/-- A lent object comes back and is found valid. -/
def System.takeBack (m : System Nat) (x : Item Nat) : System Nat :=
  (m.started (.giveBack x) (m.guards.erase x)).resumed (.checking (.returned x)) true []

theorem Reachable.lend {m : System Nat} (hm : Reachable .nesting m) (value : Nat)
    (hmade : (m.started .tryBorrow m.guards).ongoing = [.creating]) :
    Reachable .nesting (m.lend value) :=
  (hm.next (.start m .tryBorrow m.guards (.refl _) trivial)).next
    (.resume _ [] .creating [] (.ok value) hmade fun _ => rfl)

theorem Reachable.takeBack {m : System Nat} (hm : Reachable .nesting m) {x : Item Nat}
    (hx : x ∈ m.guards) (hback : (m.started (.giveBack x) (m.guards.erase x)).ongoing =
      [.checking (.returned x)]) : Reachable .nesting (m.takeBack x) :=
  (hm.next (.start m (.giveBack x) _ (List.perm_cons_erase hx) trivial)).next
    (.resume _ [] (.checking (.returned x)) [] true hback fun _ => rfl)

/-- Three objects of a pool are lent. -/
def threeLent : System Nat :=
  (((System.initial "pool" { maxSize := 3, idleTimeout := some ⟨5⟩ } 0).lend 7).lend 8).lend 9

/-- One comes back at the start, the others at 2; at 6 the first has been idle for too long. -/
def threeIdle : System Nat :=
  { ({ threeLent.takeBack ⟨0, 7⟩ with now := 2 }.takeBack ⟨1, 8⟩).takeBack ⟨2, 9⟩ with now := 6 }

theorem reachable_threeIdle : Reachable .nesting threeIdle := by
  have hinitial : Reachable .nesting (System.initial "pool"
      { maxSize := 3, idleTimeout := some ⟨5⟩ } 0 : System Nat) := .initial _ _ _
  have hlent : Reachable .nesting threeLent :=
    ((hinitial.lend 7 (by cbv)).lend 8 (by cbv)).lend 9 (by cbv)
  have hfirst := hlent.takeBack (x := ⟨0, 7⟩) (by decide) (by cbv)
  have hlater := hfirst.next (.pass _ 2 (by decide))
  have hall := (hlater.takeBack (x := ⟨1, 8⟩) (by decide) (by cbv)).takeBack (x := ⟨2, 9⟩)
    (by decide) (by cbv)
  exact hall.next (.pass _ 6 (by decide))

/-- The oldest of three idle objects is past the timeout and the next one is no longer valid: both
are destroyed, the first without a look at it, and the last one is lent. -/
theorem tryBorrow_exact_older : ∃ (b : Replies Nat) (r : Result Nat) (m' : System Nat),
    threeIdle.pool.closed = false ∧ threeIdle.pool.expired ⟨⟨0, 7⟩, 0⟩ threeIdle.now ∧
      (Conduct.alone b.reaction).run threeIdle .tryBorrow = (r, m') ∧
      m'.calls = threeIdle.calls ++
        [.destroy ⟨0, 7⟩, .validate ⟨1, 8⟩, .destroy ⟨1, 8⟩, .validate ⟨2, 9⟩] ∧
      m'.destroyed = [⟨0, 7⟩, ⟨1, 8⟩] ∧ m'.guards = [⟨2, 9⟩] ∧ m'.pool.idle = [] := by
  have hopen : threeIdle.pool.closed = false := by cbv
  have hexpired : threeIdle.pool.expired ⟨⟨0, 7⟩, 0⟩ threeIdle.now :=
    (expired_iff ..).mpr ⟨⟨5⟩, rfl, by decide⟩
  let b : Replies Nat := ⟨fun x => decide (x.value ≠ 8), .ok 9⟩
  obtain ⟨-, -, calls, r, m', hrun, hcalls, hdestroyed, -, hserved, hguards, -⟩ :=
    tryBorrow_exact reachable_threeIdle hopen b
  have hgone : threeIdle.pool.front b threeIdle.now = [⟨⟨0, 7⟩, 0⟩, ⟨⟨1, 8⟩, 2⟩] := by cbv
  rw [hgone] at hcalls hdestroyed hserved
  have hnext : (threeIdle.pool.discard 2).idle = [⟨⟨2, 9⟩, 2⟩] := by cbv
  obtain ⟨rfl, rfl, hpool⟩ := hserved.of_cons hnext
  refine ⟨b, _, m', hopen, hexpired, hrun, ?_, hdestroyed, hguards, ?_⟩
  · exact hcalls.trans (by cbv)
  · rw [hpool]

end ConnectionLeasing.Pool

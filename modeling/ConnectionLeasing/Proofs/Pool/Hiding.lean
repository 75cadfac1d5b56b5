import ConnectionLeasing.Proofs.Pool.Episode
import ConnectionLeasing.Proofs.Waiting

/-!
# When a pool looks exhausted

A borrow finds nothing exactly if the queue is empty and the total has reached the size of the pool.
The total counts what an eviction has in hand as well: the object it has just taken from the queue
to check it, and those it has set aside and will put back. These objects are idle and not out, yet
no borrower can see them before the eviction is through.

* `length_hands`: an object in hand is engaged, or it is hidden by an eviction.
* `exhausted_iff`: a borrow finds nothing exactly if guards, engaged objects, objects being made and
  hidden objects fill the pool; without hidden ones, exactly if all others are out.
-/

namespace ConnectionLeasing.Pool

variable {α : Type}

/-! ### Engaged and hidden objects -/

/-- The objects that an operation checks for a borrow or a return, or destroys. -/
def Frame.engaged : Frame α → List (Item α)
  | creating | checking (.evicting ..) => []
  | checking (.returned x) => [x]
  | checking (.lending x _) => [x.toItem]
  | destroying x _ => [x]

/-- The idle objects that an eviction has in hand and may keep. -/
def Frame.hidden : Frame α → List (Item α)
  | checking (.evicting x run) => x.toItem :: run.keep.map (·.toItem)
  | destroying _ d => d.items
  | creating | checking (.returned _) | checking (.lending ..) => []

theorem items_eq (f : Frame α) : f.items = f.engaged ++ f.hidden := by
  cases f with
  | creating => rfl
  | checking c => cases c <;> rfl
  | destroying x d => rfl

theorem hidden_of_calm {f : Frame α} (h : f.isEvicting = false) : f.hidden = [] := by
  cases f with
  | creating => rfl
  | checking c =>
    cases c with
    | returned | lending => rfl
    | evicting => cases h
  | destroying x d =>
    cases d with
    | returned | stale | drained => rfl
    | evicted | rejected => cases h

namespace System

def engaged (m : System α) : List (Item α) := m.ongoing.flatMap Frame.engaged

def hidden (m : System α) : List (Item α) := m.ongoing.flatMap Frame.hidden

theorem length_hands (m : System α) : m.hands.length = m.engaged.length + m.hidden.length := by
  have hsplit : ∀ l : List (Frame α), (l.flatMap Frame.items).length =
      (l.flatMap Frame.engaged).length + (l.flatMap Frame.hidden).length := by
    intro l
    induction l with
    | nil => rfl
    | cons f l ih =>
      simp only [List.flatMap_cons, List.length_append, ih, items_eq f]
      omega
  exact hsplit m.ongoing

end System

/-! ### Exhaustion -/

section runs
variable {R : Regime α} {m : System α}

theorem System.Balances.dry_iff (hb : m.Balances) :
    m.pool.Dry ↔ m.pool.closed = false ∧ m.pool.idle = [] ∧
      m.guards.length + (m.rooms + m.engaged.length) + m.hidden.length =
        m.pool.settings.maxSize := by
  have htotal := hb.total
  have hbound := hb.bound
  rw [m.length_hands] at htotal
  constructor
  · rintro ⟨hopen, hidle, hfull⟩
    rw [hidle, List.length_nil] at htotal
    exact ⟨hopen, hidle, by omega⟩
  · rintro ⟨hopen, hidle, hfull⟩
    exact ⟨hopen, hidle, by omega⟩

/-- **When a borrow finds nothing.** No operation that goes on after a callback finds nothing. One
that starts does if and only if it is a borrow from an open pool with an empty queue, and the
guards, the objects being made, those checked for borrows and returns, those being destroyed and
those hidden by evictions are as many as the pool may have. In that case the others alone are as
many exactly if none is hidden, for example if no eviction is in progress; and a blocking borrow
with a timeout of zero times out at once. -/
theorem exhausted_iff (hm : Reachable R m) :
    (∀ f ∈ m.ongoing, ∀ a, (resume m.pool m.now f a).next ≠ .done .exhausted) ∧
    (∀ k, (start m.pool m.now k).next = .done .exhausted ↔
      k = .tryBorrow ∧ m.pool.closed = false ∧ m.pool.idle = [] ∧
      m.guards.length + (m.rooms + m.engaged.length) + m.hidden.length =
        m.pool.settings.maxSize) ∧
    ((start m.pool m.now .tryBorrow).next = .done .exhausted →
      (m.pool.settings.maxSize ≤ m.guards.length + (m.rooms + m.engaged.length) ↔
        m.hidden = []) ∧
      ((∀ f ∈ m.ongoing, f.isEvicting = false) → m.hidden = []) ∧
      ∀ S, Tries S → S.now (m.started .tryBorrow m.guards) = S.now m → ∀ tries,
        Waiting.block S ⟨0⟩ (tries + 1) m =
          (m.started .tryBorrow m.guards, some (.error (.timeout ⟨0⟩)))) := by
  have hb := hm.balances
  refine ⟨fun f hf a => hb.resume_ne_exhausted hf a, fun k => ?_, fun hexhausted => ?_⟩
  · constructor
    · intro hk
      have herrand := errand_start m.pool m.now k
      rw [Step.errand, hk] at herrand
      cases k with
      | tryBorrow => exact ⟨rfl, hb.dry_iff.mp ((tryBorrow_exhausted_iff m.now).mp hk)⟩
      | giveBack | evictIdle | close => cases herrand
    · rintro ⟨rfl, hdry⟩
      exact (tryBorrow_exhausted_iff m.now).mpr (hb.dry_iff.mpr hdry)
  · obtain ⟨-, -, hfull⟩ := hb.dry_iff.mp ((tryBorrow_exhausted_iff m.now).mp hexhausted)
    refine ⟨?_, fun hcalm => ?_, fun S hS hnow tries => ?_⟩
    · rw [← List.length_eq_zero_iff]
      omega
    · exact List.flatMap_eq_nil_iff.mpr fun f hf => hidden_of_calm (hcalm f hf)
    · have htry := hS m .exhausted hexhausted
      rw [Waiting.block, Waiting.blockUntil_last tries fun _ => ?_, htry]
      · rfl
      · rw [htry, hnow]
        exact Nat.le_refl _

/-- An eviction checks the only object of a pool. -/
def checkingOnly : System Nat :=
  ((lentOnly.started (.giveBack ⟨0, 7⟩) []).resumed (.checking (.returned ⟨0, 7⟩)) true []).started
    .evictIdle []

theorem reachable_checkingOnly : Reachable .nesting checkingOnly := by
  let m₁ := lentOnly.started (.giveBack ⟨0, 7⟩) []
  let m₂ := m₁.resumed (.checking (.returned ⟨0, 7⟩)) true []
  have hm₁ : Reachable .nesting m₁ :=
    reachable_lentOnly.next (.start lentOnly (.giveBack ⟨0, 7⟩) [] (.refl _) trivial)
  have hm₂ : Reachable .nesting m₂ :=
    hm₁.next (.resume m₁ [] (.checking (.returned ⟨0, 7⟩)) [] true (by cbv) fun _ => rfl)
  exact hm₂.next (.start m₂ .evictIdle [] (.refl _) trivial)

/-- The callback of the eviction borrows without waiting, and with a timeout of zero. -/
theorem exhausted_iff_hiding : ∃ (m : System Nat) (x : Item Nat), m.hidden = [x] ∧
    (start m.pool m.now .tryBorrow).next = .done .exhausted ∧
    ¬ m.pool.settings.maxSize ≤ m.guards.length + (m.rooms + m.engaged.length) ∧
    Waiting.block hasty ⟨0⟩ 1 m =
      (m.started .tryBorrow [], some (.error (.timeout ⟨0⟩))) := by
  obtain ⟨-, hiff, hhidden⟩ := exhausted_iff reachable_checkingOnly
  have hexhausted : (start checkingOnly.pool checkingOnly.now .tryBorrow).next =
      .done .exhausted := (hiff .tryBorrow).mpr ⟨rfl, by cbv, by cbv, by cbv⟩
  obtain ⟨hout, -, htimeout⟩ := hhidden hexhausted
  have hx : checkingOnly.hidden = [⟨0, 7⟩] := by cbv
  refine ⟨checkingOnly, ⟨0, 7⟩, hx, hexhausted, ?_, htimeout hasty tries_hasty rfl 0⟩
  rw [hout, hx]
  exact List.cons_ne_nil _ _

/-- An eviction checks the only object of a pool, the callback finds nothing when it borrows, and
finds the object valid. Nothing was out, and the object is back in the queue. -/
theorem exhausted_by_hidden : ∃ (m m' : System Nat) (x : IdleItem Nat), Reachable .nesting m ∧
    m.pool.closed = false ∧ m.ongoing = [.checking (.evicting x { start := m.now })] ∧
    (start m.pool m.now .tryBorrow).next = .done .exhausted ∧
    m.pool.settings.maxSize = 1 ∧ m.guards.length + (m.rooms + m.engaged.length) = 0 ∧
    Moves .nesting (m.started .tryBorrow []) m' ∧ m'.ongoing = [] ∧ m'.pool.idle = [x] ∧
    m'.destroyed = [] := by
  let f : Frame Nat := .checking (.evicting ⟨⟨0, 7⟩, 0⟩ { start := 0 })
  have hongoing : (checkingOnly.started .tryBorrow []).ongoing = [] ++ f :: [] := by cbv
  exact ⟨checkingOnly, _, ⟨⟨0, 7⟩, 0⟩, reachable_checkingOnly, by cbv, by cbv, by cbv, by cbv,
    by cbv, .resume _ [] f [] true hongoing fun _ => rfl, by cbv, by cbv, by cbv⟩

end runs

end ConnectionLeasing.Pool

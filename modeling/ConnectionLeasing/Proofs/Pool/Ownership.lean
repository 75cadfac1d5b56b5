import ConnectionLeasing.Proofs.Pool.Accounting
import Mathlib.Data.List.Nodup

/-!
# Every object is in one place

An object is known by the number the pool gave it when it was made. At each moment it is idle, in a
guard, in the hands of one operation or destroyed, and in one of these once. What was handed over
for destruction is destroyed or in the hands of the operation that waits for its destruction, so no
later move checks it, lends it or hands it over again.

* `System.Kept`: the invariant; `Kept.next`: every move keeps it.
* `sole_custody`: where the objects are after any run.
-/

namespace ConnectionLeasing.Pool

variable {α : Type}

namespace System

/-- Where the objects are: idle, in guards, in the hands of operations, or destroyed. -/
def places (m : System α) : List (Item α) := m.pool.items ++ m.guards ++ m.hands ++ m.destroyed

/-- The object was destroyed, or is being destroyed by one of the operations. -/
def Gone (m : System α) (ongoing : List (Frame α)) (x : Item α) : Prop :=
  x ∈ m.destroyed ∨ ∃ d, .destroying x d ∈ ongoing

/-- Whatever has been seen of objects is about objects that were made, and nothing has been seen of
one after it was handed over for destruction. -/
structure Kept (m : System α) : Prop where
  balances : m.Balances
  produced : m.made.map (·.value) = m.produced
  gone : ∀ e ∈ m.events, ∀ x ∈ e.doomed?, m.Gone m.ongoing x
  final : m.events.Pairwise fun e e' => ∀ x ∈ e.doomed?, ∀ y ∈ handled? e'.next, y.id ≠ x.id
  known : ∀ e ∈ m.events, ∀ x ∈ handled? e.next, x ∈ m.made

theorem perm_places {m : System α} (hb : m.Balances) : m.places.Perm m.made := by
  classical
  refine List.perm_iff_count.mpr fun x => ?_
  have hplaced := hb.placed.count_eq x
  simp only [places, List.count_append] at hplaced ⊢
  omega

end System

/-! ### What a move handles -/

section handled
variable {s : Step α} {x : Item α}

theorem Step.mem_items_of_handled (hx : x ∈ handled? s.next) : x ∈ s.items := by
  rw [Step.items]
  cases h : s.next with
  | paused f =>
    rw [h] at hx
    cases f with
    | creating => cases hx
    | checking c =>
      cases hx
      cases c <;> simp [left, lent, Frame.items, Check.items, Check.item]
    | destroying y d =>
      cases hx
      simp [left, lent, Frame.items]
  | done r =>
    rw [h] at hx
    cases r with
    | lent y =>
      cases hx
      simp [left, lent]
    | exhausted | failed | returned | evicted | closed => cases hx

theorem left_of_doomed {e : Event α} (hx : x ∈ e.doomed?) :
    ∃ d, left e.next = [.destroying x d] := by
  rw [Event.doomed?] at hx
  split at hx
  · rename_i y d h
    cases hx
    exact ⟨d, by rw [h]; rfl⟩
  · cases hx

end handled

/-! ### Moves -/

namespace System

section moves
variable {R : Regime α} {m m' : System α} {seen : Progress (Frame α) (Result α) → Event α}
  {rest : List (Frame α)} {guards : List (Item α)} {step : Step α}

theorem Balances.handled_ne (hb : (m.moved seen rest guards step).Balances) {x y : Item α}
    (hx : (m.moved seen rest guards step).Gone rest x) (hy : y ∈ handled? step.next) :
    y.id ≠ x.id := by
  have hnodup := List.nodup_iff_count.mp ((hb.placed.map (·.id)).nodup_iff.mpr hb.nodup) x.id
  intro hid
  have hy : 0 < (step.items.map (·.id)).count x.id := by
    rw [List.count_pos_iff, ← hid]
    exact List.mem_map_of_mem (Step.mem_items_of_handled hy)
  have hx : 0 < ((m.moved seen rest guards step).destroyed.map (·.id)).count x.id +
      ((rest.flatMap Frame.items).map (·.id)).count x.id := by
    rcases hx with hx | ⟨d, hx⟩
    · have hpos := List.count_pos_iff.mpr (List.mem_map_of_mem (f := (·.id)) hx)
      omega
    · have hmem : x ∈ rest.flatMap Frame.items := List.mem_flatMap.mpr ⟨_, hx, List.mem_cons_self⟩
      have hpos := List.count_pos_iff.mpr (List.mem_map_of_mem (f := (·.id)) hmem)
      omega
  -- the number would be counted twice
  simp only [hands, moved, Step.items, List.flatMap_append, List.map_append, List.count_append]
    at hnodup hx hy
  omega

theorem Kept.moved (hm : m.Kept) (hb : (m.moved seen rest guards step).Balances)
    (hnext : (seen step.next).next = step.next)
    (hproduced : (seen step.next).made?.map (·.value) = (seen step.next).produced?)
    (hgone : ∀ x, m.Gone m.ongoing x → (m.moved seen rest guards step).Gone rest x) :
    (m.moved seen rest guards step).Kept where
  balances := hb
  produced := by
    rw [made_moved, produced_moved, List.map_append, hm.produced, ← hproduced]
    cases (seen step.next).made? <;> rfl
  gone e he x hx := by
    rcases List.mem_append.mp he with he | he
    · rcases hgone x (hm.gone e he x hx) with hx | ⟨d, hx⟩
      · exact .inl hx
      · exact .inr ⟨d, List.mem_append_right _ hx⟩
    · rw [List.mem_singleton.mp he] at hx
      obtain ⟨d, hd⟩ := left_of_doomed hx
      rw [hnext] at hd
      exact .inr ⟨d, List.mem_append_left _ (by rw [hd]; exact List.mem_cons_self)⟩
  final := by
    refine List.pairwise_append.mpr ⟨hm.final, List.pairwise_singleton _ _, ?_⟩
    intro e he e' he' x hx y hy
    rw [List.mem_singleton.mp he', hnext] at hy
    exact hb.handled_ne (hgone x (hm.gone e he x hx)) hy
  known e he x hx := by
    rcases List.mem_append.mp he with he | he
    · rw [made_moved]
      exact List.mem_append_left _ (hm.known e he x hx)
    · rw [List.mem_singleton.mp he, hnext] at hx
      refine hb.placed.subset ?_
      have hitems := Step.mem_items_of_handled hx
      rw [Step.items] at hitems
      simp only [hands, System.moved, List.flatMap_append, List.mem_append] at hitems ⊢
      rcases hitems with hx | hx
      · exact .inr (.inl (.inl hx))
      · exact .inr (.inr (.inl (.inl hx)))

theorem Kept.next (hm : m.Kept) (hmove : Moves R m m') : m'.Kept := by
  have hb := hm.balances.next hmove
  cases hmove with
  | start k guards hk h =>
    refine hm.moved hb rfl rfl fun x hx => hx.imp_left fun hx => ?_
    rw [destroyed_moved]
    exact List.mem_append_left _ hx
  | resume before f later a hongoing h =>
    refine hm.moved hb rfl ?_ fun x hx => ?_
    · cases f with
      | creating => cases a <;> rfl
      | checking | destroying => rfl
    · rw [Gone, destroyed_moved]
      rcases hx with hx | ⟨d, hx⟩
      · exact .inl (List.mem_append_left _ hx)
      · rw [hongoing] at hx
        rcases List.mem_append.mp hx with hx | hx
        · exact .inr ⟨d, List.mem_append_left _ hx⟩
        · rcases List.mem_cons.mp hx with rfl | hx
          -- its destruction is through now
          · exact .inl (List.mem_append_right _ (List.mem_singleton_self x))
          · exact .inr ⟨d, List.mem_append_right _ hx⟩
  | pass t ht => exact ⟨hb, hm.produced, hm.gone, hm.final, hm.known⟩

end moves

end System

section runs
variable {R : Regime α} {m : System α}

theorem Reachable.kept (hm : Reachable R m) : m.Kept := by
  obtain ⟨name, settings, now, hrun⟩ := hm
  refine hrun.keeps (fun _ _ hmove hm => hm.next hmove) ⟨System.balances_initial name settings now,
    rfl, ?_, .nil, ?_⟩ <;>
  · intro e he
    cases he

/-- **Every object is in one place.** After any run the objects that were produced, each under the
number it was given, are those in the queue, in guards, in the hands of operations and destroyed,
each once. What was handed over for destruction is not checked, lent or handed over again. What is
seen of an object is always seen under its number, and different objects have different ones. -/
theorem sole_custody (hm : Reachable R m) :
    m.made.map (·.value) = m.produced ∧
    m.places.Perm m.made ∧ (m.places.map (·.id)).Nodup ∧
    (m.produced.Nodup → (m.places.map (·.value)).Nodup) ∧
    (m.events.Pairwise fun e e' => ∀ x ∈ e.doomed?, ∀ y ∈ handled? e'.next, y.id ≠ x.id) ∧
    (∀ e ∈ m.events, ∀ x ∈ handled? e.next, x ∈ m.made) ∧
    ∀ x ∈ m.made, ∀ y ∈ m.made, x.id = y.id → x = y := by
  have hk := hm.kept
  have hperm := System.perm_places hk.balances
  have hids : (m.made.map (·.id)).Nodup := hk.balances.nodup
  refine ⟨hk.produced, hperm, (hperm.map _).nodup_iff.mpr hids, fun hvalues => ?_, hk.final,
    hk.known, fun x hx y hy hid => List.inj_on_of_nodup_map hids hx hy hid⟩
  refine (hperm.map _).nodup_iff.mpr ?_
  rw [hk.produced]
  exact hvalues

/-- An object is made while another one, which was given back, is destroyed. -/
theorem sole_custody_amid : ∃ (m : System Nat) (x y : Item Nat), m.hands = [x] ∧ m.guards = [y] ∧
    m.places.Perm m.made ∧ (m.places.map (·.id)).Nodup ∧
    m.events.Pairwise fun e e' => ∀ x ∈ e.doomed?, ∀ y ∈ handled? e'.next, y.id ≠ x.id := by
  let x : Item Nat := ⟨0, 7⟩
  let y : Item Nat := ⟨1, 8⟩
  let m₁ := lentOne.started (.giveBack x) []
  let m₂ := m₁.resumed (.checking (.returned x)) false []
  let m₃ := m₂.started .tryBorrow []
  let m₄ := m₃.resumed .creating (.ok 8) [.destroying x .returned]
  have hm₁ : Reachable .nesting m₁ :=
    reachable_lentOne.next (.start lentOne (.giveBack x) [] (.refl _) trivial)
  have hm₂ : Reachable .nesting m₂ :=
    hm₁.next (.resume m₁ [] (.checking (.returned x)) [] false rfl fun _ => rfl)
  have hm₃ : Reachable .nesting m₃ := hm₂.next (.start m₂ .tryBorrow [] (.refl _) trivial)
  have hm₄ : Reachable .nesting m₄ :=
    hm₃.next (.resume m₃ [] .creating [.destroying x .returned] (.ok 8) rfl fun _ => rfl)
  obtain ⟨-, hplaces, hids, -, hfinal, -⟩ := sole_custody hm₄
  exact ⟨m₄, x, y, rfl, rfl, hplaces, hids, hfinal⟩

end runs

end ConnectionLeasing.Pool

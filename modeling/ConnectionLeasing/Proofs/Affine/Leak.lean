import ConnectionLeasing.Proofs.Affine.Clearing
import Mathlib.Data.List.Nodup

/-!
# No connection leaks

While checks and disconnects do not call back and nobody closes everything during an opening, every
connection that was opened is registered once and was never asked to disconnect, or is not
registered and was asked once. This holds whenever no check and no disconnect is being answered.

* `State.Registers`: a registered slot holds a handle; one slot only (`registers_unique`).
* `no_leak`: the account of all connections.
-/

namespace ConnectionLeasing.Affine

/-- The slot that a context has registered for an identity holds a handle. -/
def State.Registers (s : State) (i : Identity) (c : ContextId) (id : Nat) (h : Handle) : Prop :=
  s.registry.slot? i c = some id ∧ s.handle? id = some h

section sound
variable {g : Stage} {i j : Identity} {c d : ContextId} {id other : Nat} {h : Handle}

theorem Stage.Sound.of_slot? (hs : g.Sound) (hr : g.state.registry.slot? i c = some id) :
    ∃ e, g.state.registry.entryId? i = some e ∧ g.homes[e]? = some i ∧
      g.state.slotIn? e c = some id := by
  obtain ⟨e, he, hin⟩ := Option.bind_eq_some_iff.mp hr
  exact ⟨e, he, hs.home he, hin⟩

theorem Stage.Sound.registers_unique (hs : g.Sound) (hr : g.state.Registers i c id h)
    (hr' : g.state.Registers j d other h) : j = i ∧ d = c ∧ other = id := by
  obtain rfl : other = id := hs.accounted.once _ _ h hr'.2 hr.2
  obtain ⟨e, -, hhome, hin⟩ := hs.of_slot? hr.1
  obtain ⟨e', -, hhome', hin'⟩ := hs.of_slot? hr'.1
  obtain ⟨rfl, rfl⟩ := hs.placed.slotIn?_inj hin hin'
  have hi : some j = some i := hhome'.symm.trans hhome
  exact ⟨Option.some.inj hi, rfl, rfl⟩

theorem Stage.Sound.open_of_slot? (hs : g.Sound) (hc : g.closing = none)
    (hr : g.state.registry.slot? i c = some id) : g.state.owner? id = some c ∧
      ∃ h, g.state.handle? id = some h ∧ (i, h) ∈ g.opened ∧ h ∉ g.disconnected := by
  obtain ⟨e, -, hhome, hin⟩ := hs.of_slot? hr
  refine ⟨hs.placed.owner e c id hin, ?_⟩
  obtain ⟨h, hh⟩ := hs.placed.exists_handle hc hin
  obtain ⟨e', j, hplace, hhome', ho⟩ := hs.accounted.held id h hh
  have he : some e' = some e := hplace.symm.trans (hs.placed.place e c id hin)
  cases he
  have hj : some j = some i := hhome'.symm.trans hhome
  cases hj
  exact ⟨h, hh, ho, hs.accounted.unasked id h hh⟩

theorem Stage.Sound.home_of_opened (hs : g.Sound) (ho : (i, h) ∈ g.opened) {e : Nat}
    (hh : g.state.handle? id = some h) (hp : g.places[id]? = some e) : g.homes[e]? = some i := by
  obtain ⟨e', j, hp', hj, ho'⟩ := hs.accounted.held id h hh
  have he : some e' = some e := hp'.symm.trans hp
  cases he
  have hji : (j, h) = (i, h) := List.inj_on_of_nodup_map hs.accounted.nodup ho' ho rfl
  cases hji
  exact hj

end sound

/-- **No connection leaks.** When no check and no disconnect is being answered, registered slots
are open and stand under their owner, no handle is in two slots, and every connection that was
opened is registered once and was never asked to disconnect, or is not registered and was asked
exactly once. -/
theorem no_leak {m : System} (hm : Reachable .orderly m)
    (hrest : ∀ o ∈ m.ongoing, o.frame.call.yields) :
    (∀ i c id, m.state.registry.slot? i c = some id →
      m.state.owner? id = some c ∧
        ∃ h, m.state.handle? id = some h ∧ (i, h) ∈ m.opened ∧ h ∉ m.disconnected) ∧
    (∀ id other h, m.state.handle? id = some h → m.state.handle? other = some h → id = other) ∧
    ∀ i h, (i, h) ∈ m.opened →
      (m.disconnected.count h = 0 ∧ ∃ c id, m.state.Registers i c id h ∧
        ∀ j d other, m.state.Registers j d other h → j = i ∧ d = c ∧ other = id) ∨
      (m.disconnected.count h = 1 ∧ ∀ j d other, ¬ m.state.Registers j d other h) := by
  have htidy : ∀ i, ∃ g, m.Good True g ∧ m.Tidy i g := fun i =>
    (hm.mono fun _ _ h => h i).tidy
  refine ⟨fun i c id hr => ?_, fun id other h hh hh' => ?_, fun i h ho => ?_⟩
  · obtain ⟨g, hg, -⟩ := htidy i
    rw [← hg.state] at hr ⊢
    rw [← hg.opened, ← hg.disconnected]
    exact (hg.sound trivial).open_of_slot?
      ((hg.closing trivial).trans (System.closing_of_yields hrest)) hr
  · obtain ⟨g, hg, -⟩ := htidy default
    rw [← hg.state] at hh hh'
    exact (hg.sound trivial).accounted.once id other h hh hh'
  · obtain ⟨g, hg, ht⟩ := htidy i
    have hs := hg.sound trivial
    have ho' : (i, h) ∈ g.opened := hg.opened ▸ ho
    rw [← hg.state, ← hg.disconnected]
    rcases hs.accounted.asked _ ho' with ⟨id, hh⟩ | hone
    · left
      refine ⟨List.count_eq_zero.mpr (hs.accounted.unasked id h hh), ?_⟩
      obtain ⟨e, c, hin⟩ := hs.placed.exists_slotIn? (hg.settled trivial) hh
      have hhome := hs.home_of_opened ho' hh (hs.placed.place e c id hin)
      have hknown := ht.anchored (fun o ho => hg.not_closeAll ho (hrest o ho)) e hhome
        (.inl ⟨c, id, hin⟩)
      have hr : g.state.Registers i c id h :=
        ⟨(Registry.slot?_entry hknown c).trans hin, hh⟩
      exact ⟨c, id, hr, fun j d other hr' => hs.registers_unique hr hr'⟩
    · right
      refine ⟨hone, fun j d other hr => ?_⟩
      have hzero := List.count_eq_zero.mpr (hs.accounted.unasked other h hr.2)
      exact absurd (hzero.symm.trans hone) (by decide)

/-- A connection that was opened and is lent. -/
theorem no_leak_lent : ∃ (m : System) (i : Identity) (h : Handle), m.opened.length = 1 ∧
    m.disconnected.count h = 0 ∧ ∃ c id, m.state.Registers i c id h ∧
      ∀ j d other, m.state.Registers j d other h → j = i ∧ d = c ∧ other = id := by
  let r : Request := ⟨⟨"host", 22, "user", "secret"⟩, ⟨1⟩, .sftp⟩
  let h : Handle := ⟨1, .sftp⟩
  let o : Ongoing := ⟨.borrow r, .opening r 0 .sftp (.ofMillis 5000)⟩
  let m := (System.initial {} .faithful 0).started (.borrow r)
  let m' := m.resumed o ⟨h, none⟩ []
  have hm : Reachable .orderly m :=
    .next (.initial {} .faithful 0) (.start _ _ fun o ho => by cases ho)
  have hm' : Reachable .orderly m' :=
    .next hm (.resume m [] o [] ⟨h, none⟩ rfl (by simp) ⟨by decide, rfl⟩)
  obtain ⟨-, -, haccount⟩ := no_leak hm' fun o ho =>
    absurd (List.length_pos_of_mem ho) (by decide)
  have hopened : (r.identity, h) ∈ m'.opened := by decide
  have hcount : m'.disconnected.count h = 0 := by decide
  refine ⟨m', r.identity, h, by decide, hcount, ?_⟩
  rcases haccount r.identity h hopened with ⟨-, hregistered⟩ | ⟨hone, -⟩
  · exact hregistered
  · exact absurd (hcount.symm.trans hone) (by decide)

end ConnectionLeasing.Affine

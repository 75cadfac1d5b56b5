import ConnectionLeasing.Proofs.Affine.Anchor

/-!
# Slots that have outstayed a moment

A slot is late at a moment if the timeout rules would not keep it then. `State.Covers` accounts for
every registered slot that is late at a moment; in a `State.Timely` manager there is none.

* `Change.stamped`: after a change a registered slot has just been stamped, or is as it was.
* `Change.covers`, `Trail.covers`: so no operation makes a slot late for a moment that has passed.
-/

namespace ConnectionLeasing

/-- The rules do not keep the slot at moment `t`. -/
def RetentionPolicy.Late (p : RetentionPolicy) (t : Nat) (x : Slot) : Prop :=
  p.verdict x.borrowed x.borrowTime x.releaseTime t ≠ .keep

/-- The slot was lent or given back just now. -/
def Slot.Fresh (now : Nat) (x : Slot) : Prop :=
  if x.borrowed then x.borrowTime = now else x.releaseTime = now

/-- Two slots with the same flag and times. -/
def Slot.Alike (x y : Slot) : Prop :=
  x.borrowed = y.borrowed ∧ x.borrowTime = y.borrowTime ∧ x.releaseTime = y.releaseTime

section late
variable {p : RetentionPolicy} {t now : Nat} {x y : Slot}

theorem RetentionPolicy.late_of_lent (h : x.borrowed = true) :
    p.Late t x ↔ p.borrowExpired x.borrowTime t = true := by
  simp [Late, verdict, h]

theorem RetentionPolicy.late_of_idle (h : x.borrowed = false) :
    p.Late t x ↔ p.idleExpired x.releaseTime t = true := by
  simp [Late, verdict, h]

theorem Slot.Fresh.not_late (h : x.Fresh now) (ht : t ≤ now) : ¬ p.Late t x := by
  unfold Slot.Fresh at h
  split at h
  · rename_i hb
    rw [RetentionPolicy.late_of_lent hb, RetentionPolicy.borrowExpired, h,
      Duration.elapsed_eq_zero ht]
    simp
  · rename_i hb
    rw [RetentionPolicy.late_of_idle (by simpa using hb), RetentionPolicy.idleExpired, h,
      Duration.elapsed_eq_zero ht]
    simp

theorem Slot.Alike.late (h : x.Alike y) : p.Late t x ↔ p.Late t y := by
  rw [RetentionPolicy.Late, h.1, h.2.1, h.2.2]
  rfl

theorem Slot.Alike.refl (x : Slot) : x.Alike x := ⟨rfl, rfl, rfl⟩

/-- A slot that is kept at one moment has not outstayed its timeout by much a little later. -/
theorem RetentionPolicy.elapsed_of_not_late (h : ¬ p.Late t x) {now period : Nat}
    (ht : t ≤ now) (hnow : now < t + period) :
    (x.borrowed = true → (Duration.elapsed now x.borrowTime).nanos <
      p.borrowTimeout.nanos + period) ∧
    (x.borrowed = false → (Duration.elapsed now x.releaseTime).nanos <
      p.idleTimeout.nanos + period) := by
  refine ⟨fun hb => ?_, fun hb => ?_⟩
  · rw [late_of_lent hb] at h
    have hkept : t - x.borrowTime ≤ p.borrowTimeout.nanos :=
      Nat.le_of_not_lt fun hlt => h (decide_eq_true hlt)
    show now - x.borrowTime < _
    omega
  · rw [late_of_idle hb] at h
    have hkept : t - x.releaseTime ≤ p.idleTimeout.nanos :=
      Nat.le_of_not_lt fun hlt => h (decide_eq_true hlt)
    show now - x.releaseTime < _
    omega

end late

namespace Affine

namespace State

/-- The slot a context has in an entry that an identity is known by. -/
def Registered (s : State) (e : Nat) (c : ContextId) (id : Nat) : Prop :=
  (∃ i, s.registry.entryId? i = some e) ∧ s.slotIn? e c = some id

/-- Every registered slot that is late at moment `t` is one that `pending` tells of, given whether
the slot is lent. -/
def Covers (s : State) (t : Nat) (pending : Nat → ContextId → Nat → Bool → Prop) : Prop :=
  ∀ e c id x, s.Registered e c id → s.slot? id = some x → s.policy.Late t x →
    pending e c id x.borrowed

/-- No registered slot is late at moment `t`. -/
def Timely (s : State) (t : Nat) : Prop := s.Covers t fun _ _ _ _ => False

theorem Covers.imp {s : State} {t : Nat} {P Q : Nat → ContextId → Nat → Bool → Prop}
    (h : s.Covers t P) (hPQ : ∀ e c id lent, s.slotIn? e c = some id → P e c id lent →
      Q e c id lent) : s.Covers t Q :=
  fun e c id x hr hx hl => hPQ e c id x.borrowed hr.2 (h e c id x hr hx hl)

end State

section change
variable {k : Command} {now t : Nat} {g g' : Stage}

theorem Change.settings {calm : Prop} (h : Change calm k now g g') :
    g'.state.settings = g.state.settings := by
  cases h with
  | finish c failure hc => cases failure <;> rfl
  | _ => rfl

/-- A slot that is registered under a key after a change has just been stamped, or was registered
under that key before. -/
theorem Change.stamped (h : Change True k now g g') (hs : g.Sound) {e id : Nat} {c : ContextId}
    {x : Slot} (hin : g'.state.slotIn? e c = some id) (hx : g'.state.slot? id = some x) :
    x.Fresh now ∨ g.state.slotIn? e c = some id ∧ ∃ y, g.state.slot? id = some y ∧ y.Alike x := by
  cases h with
  | silent | forget | drain => exact .inr ⟨hin, x, hx, .refl x⟩
  | know i hi =>
    exact .inr ⟨(Registry.slotIn?_ensure e c).symm.trans hin, x, hx, .refl x⟩
  | claim i e' hi room hg =>
    exact .inr ⟨(Registry.slotIn?_claim e c).symm.trans hin, x, hx, .refl x⟩
  | cancel e' hg =>
    exact .inr ⟨(Registry.slotIn?_cancel e c).symm.trans hin, x, hx, .refl x⟩
  | register r e' h hk hg hd he hh =>
    rw [Stage.slot?_register] at hx
    by_cases hid : id = g.state.slots.length
    · rw [if_pos hid] at hx
      cases hx
      exact .inl rfl
    · have hlt : e' < g.state.registry.entries.length := by
        rw [← hs.indexed.homes]
        exact (List.getElem?_eq_some_iff.mp (he trivial)).1
      rw [if_neg hid] at hx
      rcases Stage.slotIn?_register_cases hlt hin with ⟨-, -, hnew⟩ | ⟨-, hin⟩
      · exact absurd hnew hid
      · exact .inr ⟨hin, x, hx, .refl x⟩
  | idle other hi =>
    rcases State.slot?_mapSlot_cases hx with ⟨-, y, -, rfl⟩ | ⟨-, hx⟩
    · exact .inl rfl
    · exact .inr ⟨hin, x, hx, .refl x⟩
  | lend r other hk hi =>
    rcases State.slot?_mapSlot_cases hx with ⟨-, y, -, rfl⟩ | ⟨-, hx⟩
    · exact .inl rfl
    · exact .inr ⟨hin, x, hx, .refl x⟩
  | move r e' source other hk hr hd hne he ho hl =>
    rcases State.slot?_mapSlot_cases (f := (·.takenOver r.context now)) hx with
      ⟨-, y, -, rfl⟩ | ⟨hid, hx⟩
    · exact .inl rfl
    · rcases Stage.slotIn?_move_cases hr (hs.placed.slotIn?_inj hr) hin with
        ⟨-, -, hmoved⟩ | ⟨-, -, hin⟩
      · exact absurd hmoved.symm hid
      · exact .inr ⟨hin, x, hx, .refl x⟩
  | take y hh ho hp hd hw hc =>
    right
    rcases State.slot?_mapSlot_cases (f := fun z => { z with handle := none }) hx with
      ⟨-, z, hz, rfl⟩ | ⟨-, hx⟩
    · exact ⟨hin, z, hz, rfl, rfl, rfl⟩
    · exact ⟨hin, x, hx, .refl x⟩
  | finish y failure hc =>
    obtain ⟨hold, hid⟩ := hs.placed.slotIn?_finish hc hin
    have hx' : (g.state.finishClosing y failure).slot? id = some x := hx
    rw [State.slot?_finishClosing, State.slot?_mapSlot_of_ne _ _ (Ne.symm hid)] at hx'
    exact .inr ⟨hold, x, hx', .refl x⟩

theorem Change.entryId?_of_slotIn? {calm : Prop} (h : Change calm k now g g') {i : Identity}
    {e id : Nat} {c : ContextId} (hi : g'.state.registry.entryId? i = some e)
    (hin : g.state.slotIn? e c = some id) : g.state.registry.entryId? i = some e := by
  rcases h.entryId?_cases i with hsame | ⟨-, hnew⟩ | ⟨hnone, -⟩
  · exact hsame.symm.trans hi
  · have he : g.state.registry.entries.length = e := Option.some.inj (hnew.symm.trans hi)
    have hlt := Registry.lt_of_slotIn? hin
    omega
  · rw [hnone] at hi
    cases hi

theorem Change.registered {calm : Prop} (h : Change calm k now g g') {e id : Nat} {c : ContextId}
    (hr : g'.state.Registered e c id) (hin : g.state.slotIn? e c = some id) :
    g.state.Registered e c id := by
  obtain ⟨⟨i, hi⟩, -⟩ := hr
  exact ⟨⟨i, h.entryId?_of_slotIn? hi hin⟩, hin⟩

/-- **No change makes a registered slot late for a moment that has passed.** -/
theorem Change.covers (h : Change True k now g g') (hs : g.Sound) (ht : t ≤ now)
    {P : Nat → ContextId → Nat → Bool → Prop} (hg : g.state.Covers t P) : g'.state.Covers t P := by
  intro e c id x hr hx hlate
  rcases h.stamped hs hr.2 hx with hfresh | ⟨hin, y, hy, halike⟩
  · exact absurd hlate (hfresh.not_late ht)
  · rw [State.policy, h.settings] at hlate
    have hold := hg e c id y (h.registered hr hin) hy (halike.late.mpr hlate)
    rw [halike.1] at hold
    exact hold

theorem Trail.covers (h : Trail True k now g g') (hs : g.Sound) (ht : t ≤ now)
    {P : Nat → ContextId → Nat → Bool → Prop} (hg : g.state.Covers t P) : g'.state.Covers t P := by
  induction h with
  | refl => exact hg
  | tail htrail hchange ih => exact hchange.covers (Trail.sound trivial htrail hs) ht ih

theorem Trail.settings {calm : Prop} (h : Trail calm k now g g') :
    g'.state.settings = g.state.settings := by
  induction h with
  | refl => rfl
  | tail _ hchange ih => exact hchange.settings.trans ih

end change

end Affine

end ConnectionLeasing

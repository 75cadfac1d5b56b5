import ConnectionLeasing.Proofs.Affine.Passage
import ConnectionLeasing.Proofs.Pooled.Passage

/-!
# Where handles come from

Every connect that is answered has built a handle, whether it succeeded or not. `System.connects`
are the identities that connects for one handle were made with, in both managers; as a constructor
builds a new handle on each call, a handle has one connect at most (`connects_eq`).
-/

namespace ConnectionLeasing

/-- Every constructor builds handles of the channel it is registered for. -/
def Factory.Faithful (f : Factory) : Prop :=
  ∀ channel produces, f.produces? channel = some produces → produces = channel

/-- The handle that an answer has built, with the identity its connect was made with. -/
def Call.tried? : (call : Call) → call.Answer → Option (Identity × Handle)
  | .connect _ i _, c => some (i, c.handle)
  | .visit .., _ => none
  | .tick _, _ => none
  | .check _, _ => none
  | .disconnect _, _ => none

theorem Call.tried?_of_opened? {call : Call} {a : call.Answer} {p : Identity × Handle}
    (h : call.opened? a = some p) : call.tried? a = some p := by
  cases call with
  | connect channel i timeout =>
    simp only [Call.opened?] at h
    split at h
    · exact h
    · cases h
  | visit | tick | check | disconnect => cases h

theorem filter_snd_eq {l : List (Identity × Handle)} (hl : (l.map (·.2)).Nodup) {i : Identity}
    {h : Handle} (hmem : (i, h) ∈ l) : (l.filter (·.2 = h)).map (·.1) = [i] := by
  induction l with
  | nil => cases hmem
  | cons p l ih =>
    rw [List.map_cons, List.nodup_cons] at hl
    rcases List.mem_cons.mp hmem with heq | hmem
    · have hnone : l.filter (·.2 = h) = [] := by
        rw [List.filter_eq_nil_iff]
        intro q hq
        simp only [decide_eq_true_eq]
        rintro rfl
        refine hl.1 ?_
        rw [← heq]
        exact List.mem_map.mpr ⟨q, hq, rfl⟩
      rw [← heq, List.filter_cons_of_pos (by simp), hnone]
      rfl
    · have hne : ¬ p.2 = h := by
        intro heq
        rw [heq] at hl
        exact hl.1 (List.mem_map.mpr ⟨_, hmem, rfl⟩)
      rw [List.filter_cons_of_neg (by simpa using hne)]
      exact ih hl.2 hmem

theorem nodup_concat {l : List Handle} (hl : l.Nodup) {h : Handle} (hh : h ∉ l) :
    (l ++ [h]).Nodup :=
  List.nodup_append.mpr ⟨hl, by simp, by simpa using fun x hx => ne_of_mem_of_not_mem hx hh⟩

/-! ### Context-affine managers -/

namespace Affine

/-- The handle that is built, with the identity its connect was made with. -/
def Event.tried? : Event → Option (Identity × Handle)
  | answered _ call a => call.tried? a
  | called .. | returned .. => none

namespace System

/-- The identities that connects for a handle were made with, once for each connect. -/
def connects (m : System) (h : Handle) : List Identity :=
  ((m.events.filterMap Event.tried?).filter (·.2 = h)).map (·.1)

theorem map_tried (m : System) : (m.events.filterMap Event.tried?).map (·.2) = m.built := by
  rw [List.map_filterMap, built]
  congr
  funext e
  cases e with
  | answered k call a => cases call <;> rfl
  | called | returned => rfl

theorem nodup_answered {m : System} (hm : m.built.Nodup) {k : Command} {call : Call}
    {a : call.Answer} (ha : m.Admits call a) :
    (m.built ++ [Event.answered k call a].filterMap Event.built?).Nodup := by
  cases call with
  | connect channel i timeout => exact nodup_concat hm ha.1
  | visit | tick | check | disconnect =>
    show (m.built ++ []).Nodup
    rwa [List.append_nil]

theorem connects_eq {m : System} (hm : m.built.Nodup) {i : Identity} {h : Handle}
    (ho : (i, h) ∈ m.opened) : m.connects h = [i] := by
  refine filter_snd_eq (by rwa [map_tried]) ?_
  obtain ⟨e, he, hopened⟩ := List.mem_filterMap.mp ho
  refine List.mem_filterMap.mpr ⟨e, he, ?_⟩
  cases e with
  | answered k call a => exact Call.tried?_of_opened? hopened
  | called | returned => cases hopened

end System

theorem Reachable.nodup_built {may : Overlap} {m : System} (hm : Reachable may m) :
    m.built.Nodup := by
  induction hm with
  | initial settings factory now => exact List.nodup_nil
  | next _ hmove ih =>
    cases hmove with
    | start k hk => simpa [System.started, System.built_moved] using ih
    | resume before o later a hongoing ho ha =>
      rw [System.resumed, System.built_moved]
      exact System.nodup_answered ih ha
    | fail before o later hongoing ho htells => exact ih
    | attach o => exact ih
    | pass t ht => exact ih

end Affine

/-! ### Pooled managers -/

namespace Pooled

/-- The handle that is built, with the identity its connect was made with. -/
def Event.tried? : Event → Option (Identity × Handle)
  | answered _ call a => call.tried? a
  | called .. | returned .. => none

namespace System

/-- The identities that connects for a handle were made with, once for each connect. -/
def connects (m : System) (h : Handle) : List Identity :=
  ((m.events.filterMap Event.tried?).filter (·.2 = h)).map (·.1)

theorem map_tried (m : System) : (m.events.filterMap Event.tried?).map (·.2) = m.built := by
  rw [List.map_filterMap, built]
  congr
  funext e
  cases e with
  | answered k call a => cases call <;> rfl
  | called | returned => rfl

theorem built_moved {m : System} {k : Command} {seen : List Event} {rest : List Ongoing}
    {guards : List (Nat × Item Handle)} {step : Step} :
    (m.moved k seen rest guards step).built = m.built ++ seen.filterMap Event.built? := by
  have hshown : Event.built? (shown k step.2) = none := by
    cases step.2 <;> rfl
  simp [built, moved, hshown]

theorem nodup_answered {m : System} (hm : m.built.Nodup) {k : Command} {call : Call}
    {a : call.Answer} (ha : m.Admits call a) :
    (m.built ++ [Event.answered k call a].filterMap Event.built?).Nodup := by
  cases call with
  | connect channel i timeout => exact nodup_concat hm ha.1
  | visit | tick | check | disconnect =>
    show (m.built ++ []).Nodup
    rwa [List.append_nil]

theorem connects_eq {m : System} (hm : m.built.Nodup) {h : Handle} {source : Source}
    (hb : m.Born h source) : m.connects h = [source.identity] := by
  obtain ⟨⟨k, timeout, c, hevent, rfl⟩, -⟩ := hb
  refine filter_snd_eq (by rwa [map_tried]) ?_
  exact List.mem_filterMap.mpr ⟨_, hevent, rfl⟩

end System

theorem Reachable.nodup_built {m : System} (hm : Reachable m) : m.built.Nodup := by
  induction hm with
  | initial settings factory now => exact List.nodup_nil
  | next _ hmove ih =>
    cases hmove with
    | start k guards hk => simpa [System.started, System.built_moved] using ih
    | resume before o later a hongoing ha =>
      rw [System.resumed, System.built_moved]
      exact System.nodup_answered ih ha
    | fail before o later hongoing ho => exact ih
    | attach o => exact ih
    | pass t ht => exact ih

/-! ### What is of a pool was built for it -/

/-- Every object of a pool, every object that was lent from it, and every pool that was found for a
key has the right origin. -/
structure System.Bred (m : System) : Prop where
  objects : ∀ id x, m.Has id x → ∃ p, m.state.pools[id]? = some p ∧ m.Born x.value p.source
  lent : ∀ id c x, .returned (.inPool id c) (.pool (.lent x)) ∈ m.events →
    ∃ p, m.state.pools[id]? = some p ∧ m.Born x.value p.source
  selected : ∀ key c id, .returned (.select key c) (.selected id) ∈ m.events →
    ∃ p, m.state.pools[id]? = some p ∧ p.source.Serves m.state.factory key

section moves
variable {m m' : System}

theorem System.Born.later {h : Handle} {source : Source} {events : List Event}
    (hb : m.Born h source) (he : m'.events = m.events ++ events) : m'.Born h source := by
  obtain ⟨⟨k, timeout, c, hevent, hc⟩, hchannel⟩ := hb
  refine ⟨⟨k, timeout, c, ?_, hc⟩, hchannel⟩
  rw [he]
  exact List.mem_append_left _ hevent

theorem System.Bred.next (hm : m.Bred) (hp : System.Passage m m') : m'.Bred := by
  obtain ⟨events, hevents, htells⟩ := hp.seen
  have hlater : ∀ {id : Nat} {x : Item Handle},
      (∃ p, m.state.pools[id]? = some p ∧ m.Born x.value p.source) →
      ∃ p, m'.state.pools[id]? = some p ∧ m'.Born x.value p.source := by
    rintro id x ⟨p, hid, hborn⟩
    obtain ⟨p', hid', hsource, -⟩ := hp.older.pools id p hid
    exact ⟨p', hid', hsource ▸ hborn.later hevents⟩
  have hobjects : ∀ id x, m'.Has id x →
      ∃ p, m'.state.pools[id]? = some p ∧ m'.Born x.value p.source := by
    intro id x hx
    rcases hp.has id x hx with hx | ⟨-, p, hid, hborn⟩
    · exact hlater (hm.objects id x hx)
    · obtain ⟨p', hid', hsource, -⟩ := hp.older.pools id p hid
      exact ⟨p', hid', hsource ▸ hborn⟩
  refine ⟨hobjects, fun id c x hx => ?_, fun key c id hid => ?_⟩
  · rw [hevents] at hx
    rcases List.mem_append.mp hx with hx | hx
    · exact hlater (hm.lent id c x hx)
    · exact hobjects id x (.inr (.inr (htells _ hx)))
  · rw [hevents] at hid
    rcases List.mem_append.mp hid with hid | hid
    · obtain ⟨p, hpool, hserves⟩ := hm.selected key c id hid
      obtain ⟨p', hpool', hsource, -⟩ := hp.older.pools id p hpool
      refine ⟨p', hpool', ?_⟩
      rw [hsource, hp.older.factory]
      exact hserves
    · exact hp.good.filed.served key id (htells _ hid)

theorem Reachable.bred (hm : Reachable m) : m.Bred := by
  induction hm with
  | initial settings factory now =>
    refine ⟨fun id x hx => ?_, fun id c x hx => ?_, fun key c id hid => ?_⟩
    · rcases hx with ⟨p, hp, -⟩ | ⟨o, ho, -⟩ | hx
      · cases hp
      · cases ho
      · cases hx
    · cases hx
    · cases hid
  | next hm hmove ih => exact ih.next (hm.good.next hmove)

end moves

end Pooled

end ConnectionLeasing

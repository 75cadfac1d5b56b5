import ConnectionLeasing.Proofs.Pooled.Outcome

/-!
# What a move does to a pooled manager

Every system of a run is `Good`: the directory is in order, and whatever a frame tells of the
manager is true. `Passage` says of a move what later proofs go by: good systems stay good, pools get
older, objects keep the pool they are of, and what is seen at the end of the move is true.

* `Good.next`: every move is a passage.
* `Run.older`, `Run.events`: what follows for the rest of a run.
-/

namespace ConnectionLeasing.Pooled

/-- Whether what is seen is true of the system it is seen in: a pool that was found is the one of
its key, and an object that is lent is in a guard. -/
def Event.Tells (m : System) : Event → Prop
  | returned (.select key _) (.selected id) => Keyed.get? m.state.directory key = some id
  | returned (.inPool id _) (.pool (.lent x)) => (id, x) ∈ m.guards
  | _ => True

namespace System

structure Good (m : System) : Prop where
  filed : m.state.Filed
  frames : ∀ o ∈ m.ongoing, o.frame.Holds o.command m.state

/-- The object is of the pool: it is idle there, in the hands of an operation on it, or in a guard
that gives it back there. -/
def Has (m : System) (id : Nat) (x : Item Handle) : Prop :=
  (∃ p, m.state.pools[id]? = some p ∧ x ∈ p.pool.items) ∨
    (∃ o ∈ m.ongoing, (id, x) ∈ o.frame.items) ∨ (id, x) ∈ m.guards

/-- The handle was built for a source: its connect was made with the identity of the source, for
handles of the channel that it carries. -/
def Born (m : System) (h : Handle) (source : Source) : Prop :=
  (∃ k timeout c, .answered k (.connect source.produces source.identity timeout) c ∈ m.events ∧
    c.handle = h) ∧ h.channel = source.produces

/-- The object is made in the course of a move: its handle is new, and built for its pool. -/
def Begets (m m' : System) (id : Nat) (x : Item Handle) : Prop :=
  x.value ∉ m.built ∧ ∃ p, m.state.pools[id]? = some p ∧ m'.Born x.value p.source

/-- What a move does to a good system. -/
structure Passage (m m' : System) : Prop where
  good : m'.Good
  older : m.state.Older m'.state
  seen : ∃ events, m'.events = m.events ++ events ∧ ∀ e ∈ events, e.Tells m'
  has : ∀ id x, m'.Has id x → m.Has id x ∨ Begets m m' id x

section moves
variable {m m' : System} {k : Command} {seen : List Event} {rest : List Ongoing}
  {guards : List (Nat × Item Handle)} {step : Step} {hand : Nat → Item Handle → Prop}

theorem tells_shown (hholds : HoldsOf k step.1 step.2) :
    (shown k step.2).Tells (m.moved k seen rest guards step) := by
  obtain ⟨s, next⟩ := step
  cases next with
  | paused f => trivial
  | done r =>
    cases r with
    | selected id =>
      obtain ⟨key, c, rfl, hid⟩ := hholds
      exact hid
    | pool r =>
      cases r with
      | lent x =>
        cases k with
        | inPool id c => exact List.mem_append_left _ (List.mem_singleton_self _)
        | _ => trivial
      | _ => cases k <;> trivial
    | _ => cases k <;> trivial

theorem Good.moved (hm : m.Good) (ho : Outcome k ⟨m.state, hand⟩ step)
    (hrest : ∀ o ∈ rest, o ∈ m.ongoing) (hguards : ∀ y ∈ guards, y ∈ m.guards)
    (hseen : ∀ e ∈ seen, ∀ m, e.Tells m)
    (hhand : ∀ id x, hand id x →
      m.Has id x ∨ Begets m (m.moved k seen rest guards step) id x) :
    Passage m (m.moved k seen rest guards step) := by
  obtain ⟨g, htrail, hend⟩ := ho
  have holder : m.state.Older step.1 := hend.state ▸ htrail.older
  have hhas : ∀ id x, g.Has id x →
      m.Has id x ∨ Begets m (m.moved k seen rest guards step) id x := by
    intro id x hx
    rcases htrail.has hx with hx | hx
    · exact hhand id x hx
    · exact .inl (.inl hx)
  refine ⟨⟨?_, fun o ho => ?_⟩, holder, ⟨seen ++ [shown k step.2], by simp [System.moved],
    fun e he => ?_⟩, fun id x hx => ?_⟩
  · show step.1.Filed
    rw [← hend.state]
    exact htrail.filed hm.filed
  · rcases List.mem_append.mp ho with ho | ho
    · cases hnext : step.2 with
      | done r =>
        rw [hnext] at ho
        cases ho
      | paused f =>
        have hholds := hend.holds
        rw [hnext] at ho hholds
        rw [List.mem_singleton.mp ho]
        exact hholds
    · exact (hm.frames o (hrest o ho)).older holder
  · rcases List.mem_append.mp he with he | he
    · exact hseen e he _
    · rw [List.mem_singleton.mp he]
      exact tells_shown hend.holds
  · rcases hx with hx | ⟨o, ho, hx⟩ | hx
    · refine hhas id x (.inr ?_)
      rw [hend.state]
      exact hx
    · rcases List.mem_append.mp ho with ho | ho
      · refine hhas id x (.inl (hend.hand (id, x) (List.mem_append_left _ ?_)))
        exact List.mem_flatMap.mpr ⟨o, ho, hx⟩
      · exact .inl (.inr (.inl ⟨o, hrest o ho, hx⟩))
    · rcases List.mem_append.mp hx with hx | hx
      · exact hhas id x (.inl (hend.hand (id, x) (List.mem_append_right _ hx)))
      · exact .inl (.inr (.inr (hguards _ hx)))

theorem begets_answered {o : Ongoing} {a : o.frame.call.Answer} (hm : m.Good)
    (ho : o ∈ m.ongoing) (ha : m.Admits o.frame.call a) {id : Nat} {x : Item Handle}
    (hx : o.frame.Makes a id x) : Begets m (m.resumed o a rest) id x := by
  obtain ⟨k, f⟩ := o
  cases f with
  | telling | ticking => cases hx
  | inPool j source f after =>
    cases f with
    | checking | destroying => cases hx
    | creating =>
      obtain ⟨rfl, hvalue⟩ := hx
      obtain ⟨⟨p, hp, rfl⟩, -⟩ := hm.frames _ ho
      rw [Begets, hvalue]
      refine ⟨ha.1, p, hp, ⟨k, p.source.timeout, a, ?_, rfl⟩, ha.2⟩
      exact List.mem_append_left _ (List.mem_append_right _ (List.mem_singleton_self _))

theorem tells_answered (k : Command) (call : Call) (a : call.Answer) :
    ∀ e ∈ [Event.answered k call a], ∀ m, e.Tells m := by
  intro e he m
  rw [List.mem_singleton.mp he]
  trivial

theorem mem_ongoing_of_rest {before later : List Ongoing} {o p : Ongoing}
    (hongoing : m.ongoing = before ++ o :: later) (hp : p ∈ before ++ later) : p ∈ m.ongoing := by
  rw [hongoing]
  exact ((List.sublist_cons_self o later).append_left before).subset hp

/-- **What every move does to a good system.** -/
theorem Good.next (hm : m.Good) (hmove : Moves m m') : Passage m m' := by
  cases hmove with
  | start k guards hk =>
    refine hm.moved (outcome_start m.now hm.filed) (fun o ho => ho) (fun y hy => ?_) (by simp)
      fun id x hx => ?_
    · exact hk.mem_iff.mpr (List.mem_append_right _ hy)
    · exact .inl (.inr (.inr (hk.mem_iff.mpr (List.mem_append_left _ hx))))
  | resume before o later a hongoing ha =>
    have ho : o ∈ m.ongoing := hongoing ▸ List.mem_append_right _ List.mem_cons_self
    refine hm.moved (outcome_resume m.now hm.filed (hm.frames o ho) a)
      (fun p hp => mem_ongoing_of_rest hongoing hp) (fun y hy => hy) (tells_answered _ _ _)
      fun id x hx => ?_
    rcases hx with hx | hx
    · exact .inl (.inr (.inl ⟨o, ho, hx⟩))
    · exact .inr (begets_answered hm ho ha hx)
  | fail before o later hongoing ho =>
    have hrest : ∀ p ∈ before ++ later, p ∈ m.ongoing := fun p hp => mem_ongoing_of_rest hongoing hp
    refine ⟨⟨hm.filed, fun p hp => hm.frames p (hrest p hp)⟩, .refl _, ⟨[], by simp, by simp⟩,
      fun id x hx => .inl ?_⟩
    exact hx.imp_right fun hx => hx.imp_left fun ⟨p, hp, hx⟩ => ⟨p, hrest p hp, hx⟩
  | attach o =>
    refine ⟨⟨⟨hm.filed.served, hm.filed.closed⟩, fun p hp => ?_⟩, ?_, ⟨[], by simp, by simp⟩,
      fun id x hx => .inl hx⟩
    · exact (hm.frames p hp).older (.attached _ _)
    · exact .attached _ _
  | pass t ht =>
    exact ⟨⟨hm.filed, hm.frames⟩, .refl _, ⟨[], by simp, by simp⟩, fun id x hx => .inl hx⟩

theorem good_initial (settings : ManagerSettings) (factory : Factory) (now : Nat) :
    (initial settings factory now).Good := by
  refine ⟨⟨fun key id hid => ?_, fun id p hp => ?_⟩, fun o ho => ?_⟩
  · cases hid
  · cases hp
  · cases ho

end moves

end System

theorem Reachable.good {m : System} (hm : Reachable m) : m.Good := by
  induction hm with
  | initial settings factory now => exact System.good_initial settings factory now
  | next _ hmove ih => exact (ih.next hmove).good

/-! ### Runs from a system on -/

/-- The runs that lead from one system to another. -/
abbrev Run : System → System → Prop := Relation.ReflTransGen Moves

section runs
variable {m m' : System}

theorem Run.reachable (h : Run m m') (hm : Reachable m) : Reachable m' := by
  induction h with
  | refl => exact hm
  | tail _ hmove ih => exact .next ih hmove

theorem Run.older (h : Run m m') (hm : Reachable m) : m.state.Older m'.state := by
  induction h with
  | refl => exact .refl _
  | tail hrun hmove ih => exact ih.trans ((Run.reachable hrun hm).good.next hmove).older

theorem Run.events (h : Run m m') (hm : Reachable m) :
    ∃ events, m'.events = m.events ++ events := by
  induction h with
  | refl => exact ⟨[], by simp⟩
  | tail hrun hmove ih =>
    obtain ⟨events, hevents⟩ := ih
    obtain ⟨more, hmore, -⟩ := ((Run.reachable hrun hm).good.next hmove).seen
    exact ⟨events ++ more, by rw [hmore, hevents, List.append_assoc]⟩

theorem Run.built (h : Run m m') (hm : Reachable m) : ∀ x ∈ m.built, x ∈ m'.built := by
  obtain ⟨events, hevents⟩ := h.events hm
  intro x hx
  rw [System.built, hevents, List.filterMap_append]
  exact List.mem_append_left _ hx

/-! ### The borrow of a new handle -/

/-- A borrow from pool number `id`, up to its connect. -/
def System.connecting (m : System) (key : PoolKey) (id : Nat) : System :=
  (m.started (.select key ⟨1⟩) m.guards).started (.inPool id .tryBorrow) m.guards

/-- The borrow has its handle. -/
def System.connected (m : System) (source : Source) (id : Nat) (h : Handle) : System :=
  m.resumed ⟨.inPool id .tryBorrow, .inPool id source .creating .caller⟩ ⟨h, none⟩ []

theorem run_connecting (m : System) (key : PoolKey) (id : Nat) : Run m (m.connecting key id) := by
  let selected := m.started (.select key ⟨1⟩) m.guards
  have hselect : Run m selected := .single (.start m _ m.guards (.refl _))
  have hguards : selected.guards = m.guards := rfl
  exact hselect.tail (.start selected _ m.guards (.refl _))

theorem run_connected (m : System) (source : Source) (id : Nat) (h : Handle)
    (hm : m.ongoing = [⟨.inPool id .tryBorrow, .inPool id source .creating .caller⟩])
    (hh : h ∉ m.built) (hc : h.channel = source.produces) : Run m (m.connected source id h) :=
  .single (.resume m [] ⟨_, .inPool id source .creating .caller⟩ [] ⟨h, none⟩ hm ⟨hh, hc⟩)

end runs

end ConnectionLeasing.Pooled

import ConnectionLeasing.Proofs.Scenario.Following

/-!
# A tick is shown around

Showing a tick to the observers of a monitor is an operation like any other: it waits for calls, and
anything may run inside them. It shows the tick to each observer that wants it, in order, until one
of them fails, whose message is what it ends with.

* `shown_answer`: one call, to an observer or within a sweep or an eviction.
* `shown_drive`: the operation from any of its calls on.
* `shown_onMonitor`: the whole of it, for the monitors of managers and for bare ones.
-/

namespace ConnectionLeasing.Scenario

/-- How a machine that shows a tick goes on at a site; `Awaits` says to whom it is still to be
shown. -/
structure Shows {S F R : Type} (machine : Machine S F R) (site : Site S)
    (Awaits : List Recorder → S × Progress F R → Prop) : Prop where
  done : ∀ {audience s r}, Awaits audience (s, .done r) → audience = []
  later : ∀ {audience} {w w' : World} {p}, w.pools.length ≤ w'.pools.length →
    Awaits audience (site.read w, p) → Awaits audience (site.read w', p)
  written : ∀ {audience} (w : World) {s p}, Awaits audience (s, p) →
    Awaits audience (site.read (site.write w s), p)
  resume : ∀ {audience s f}, Awaits audience (s, .paused f) → ∃ rest,
    (machine.call f).Leaves audience rest ∧ ∀ s' now (a : (machine.call f).Answer),
      Awaits audience (s', .paused f) → Awaits rest (machine.resume s' now f a)

theorem ShownAround.after {audience : List Recorder} {l : Chronicle} {failure : Option String}
    (h : ShownAround audience l failure) (before : Chronicle) :
    ShownAround audience (before ++ l) failure := by
  refine h.imp_right fun ⟨hfailure, hsub⟩ => ⟨hfailure, ?_⟩
  rw [Chronicle.shown_append]
  exact hsub.trans (List.sublist_append_right _ _)

section run
variable {run : Run} (hrun : ∀ (a : Action) (w : World), w.Follows (run a w).1)
  {audience rest : List Recorder}
include hrun

section machine
variable {S F R : Type} {machine : Machine S F R} {site : Site S}
  {Awaits : List Recorder → S × Progress F R → Prop}

end machine

end run

end ConnectionLeasing.Scenario

import ConnectionLeasing.Proofs.Timetable

/-!
# Reading ticks off the chronicle

A timetable has gone through every part of its chronicle, one after the other. So what is known of
its moves can be said of the chronicle alone, cut where a schedule was switched or stopped:

* `Reachable.beats`: the ticks after a task was started, until the next cut.
* `Reachable.rests`, `Reachable.untouched`: there are none after any other cut, or before the first.
* `Run.superseded`: after a cut, tasks of earlier ticks and the task that was live are through.
* `Reachable.enabled_eq`: a schedule is switched on just while it has a task, or its start failed.
-/

namespace ConnectionLeasing.Timetable

variable {x y z : Timetable} {i : Nat} {e : Option Happening}

/-! ### Cutting a run -/

/-- A run is at some point where its chronicle is cut, and what comes first after the cut is its
next move. -/
theorem Run.split_cons (hrun : Run x y) {before after : Chronicle} {h : Happened}
    (hy : y.chronicle = x.chronicle ++ before ++ h :: after) : ∃ u v, Run x u ∧
      u.chronicle = x.chronicle ++ before ∧ u.now = h.moment ∧ Moves u (some h.what) v ∧
      Run v y := by
  induction hrun generalizing after with
  | refl =>
    have hlength := congrArg List.length hy
    simp only [List.length_append, List.length_cons] at hlength
    omega
  | @tail u v hrun hmove ih =>
    obtain ⟨e, hmove⟩ := hmove
    have hchronicle := hmove.chronicle
    rw [hy] at hchronicle
    cases e with
    | none =>
      obtain ⟨a, b, ha, hb, hnow, hab, hbu⟩ := ih (hchronicle.trans (List.append_nil _)).symm
      exact ⟨a, b, ha, hb, hnow, hab, hbu.tail ⟨none, hmove⟩⟩
    | some e =>
      rcases List.eq_nil_or_concat after with rfl | ⟨after, last, rfl⟩
      · obtain ⟨hu, hlast⟩ := List.append_inj' hchronicle rfl
        cases hlast
        exact ⟨u, v, hrun, hu.symm, rfl, hmove, .refl⟩
      · rw [List.concat_eq_append, ← List.cons_append, ← List.append_assoc] at hchronicle
        obtain ⟨hu, -⟩ := List.append_inj' hchronicle rfl
        obtain ⟨a, b, ha, hb, hnow, hab, hbu⟩ := ih hu.symm
        exact ⟨a, b, ha, hb, hnow, hab, hbu.tail ⟨some e, hmove⟩⟩

theorem Run.split (hrun : Run x y) {before after : Chronicle}
    (hy : y.chronicle = x.chronicle ++ before ++ after) : ∃ u, Run x u ∧
      u.chronicle = x.chronicle ++ before ∧ u.now = after.beginning y.now ∧ Run u y := by
  cases after with
  | nil => exact ⟨y, hrun, hy.trans (List.append_nil _), rfl, .refl⟩
  | cons h after =>
    obtain ⟨u, v, hu, hchronicle, hnow, hmove, hv⟩ := hrun.split_cons hy
    exact ⟨u, hu, hchronicle, hnow, hv.head ⟨_, hmove⟩⟩

theorem Run.steady (hrun : Run x y) {l : Chronicle} (hy : y.chronicle = x.chronicle ++ l)
    (hspares : l.Spares i) : Steady i x y := by
  induction hrun generalizing l with
  | refl => exact .refl
  | @tail u v hrun hmove ih =>
    obtain ⟨e, hmove⟩ := hmove
    obtain ⟨before, hu⟩ := Run.chronicle hrun
    have hwhole : x.chronicle ++ l =
        x.chronicle ++ (before ++ (e.map fun h => (⟨u.now, h⟩ : Happened)).toList) := by
      rw [← hy, hmove.chronicle, ← List.append_assoc, hu]
    have hl := List.append_cancel_left hwhole
    refine (ih hu.symm fun h hh => hspares h (hl ▸ List.mem_append_left _ hh)).tail ⟨e, ?_, hmove⟩
    cases e with
    | none => simp
    | some e => exact hspares ⟨u.now, e⟩ (hl ▸ List.mem_append_right _ (List.mem_singleton_self _))

theorem Reachable.exists_run (hx : x.Reachable) : ∃ now turn, Run ⟨[], now, turn, []⟩ x := by
  induction hx with
  | initial now turn => exact ⟨now, turn, .refl⟩
  | next _ hmove ih =>
    obtain ⟨now, turn, hrun⟩ := ih
    exact ⟨now, turn, hrun.tail ⟨_, hmove⟩⟩

theorem Run.sound (hrun : Run x y) (hx : x.Sound) : y.Sound :=
  hrun.keeps (fun _ _ _ hmove hx => hx.next hmove) hx

theorem Run.instant (hrun : Run x y) (hx : x.Sound) (hy : y.chronicle.Instant y.now) :
    x.chronicle.Instant x.now := by
  induction hrun with
  | refl => exact hy
  | tail hrun hmove ih =>
    obtain ⟨e, hmove⟩ := hmove
    exact ih (hmove.instant (Run.sound hrun hx) hy)

/-! ### What is stored, and what is switched on -/

theorem Reachable.period? (hx : x.Reachable) (i : Nat) :
    x.chronicle.period? i = x.schedules[i]?.map (·.period) := by
  induction hx with
  | initial now turn => rfl
  | @next x y e _ hmove ih =>
    have changed : ∀ (f : Schedule → Schedule), (∀ s, (f s).period = s.period) → ∀ n,
        (x.change n f).schedules[i]?.map (·.period) = x.schedules[i]?.map (·.period) := by
      intro f hf n
      rw [getElem?_change]
      split
      · rw [Option.map_map]
        exact congrArg (Option.map · _) (funext hf)
      · rfl
    have entered : ∀ h : Happening, e = some h →
        y.chronicle.period? i = h.period? i (x.schedules[i]?.map (·.period)) := by
      rintro h rfl
      rw [hmove.chronicle, ← ih]
      exact Chronicle.period?_concat x.chronicle ⟨x.now, h⟩ i
    cases hmove with
    | add period =>
      rw [entered _ rfl]
      show _ = (x.schedules ++ [({ period } : Schedule)])[i]?.map _
      simp only [Happening.period?]
      split
      · rename_i hi
        rw [← hi, List.getElem?_concat_length]
        rfl
      · rename_i hi
        by_cases hlt : i < x.schedules.length
        · rw [List.getElem?_append_left hlt]
        · rw [List.getElem?_eq_none (by omega), List.getElem?_eq_none (by simp; omega)]
    | switch n on fault =>
      exact (entered _ rfl).trans (changed (·.setEnabled _ _ on fault) (fun _ => rfl) n).symm
    | stop n => exact (entered _ rfl).trans (changed .stop (fun _ => rfl) n).symm
    | store n period =>
      rw [entered _ rfl]
      show _ = (x.change n _).schedules[i]?.map _
      rw [getElem?_change]
      simp only [Happening.period?]
      split
      · rw [Option.map_map, Option.map_map]
        rfl
      · rfl
    | tick n => exact (entered _ rfl).trans (changed .beginTick (fun _ => rfl) n).symm
    | shown o => exact entered _ rfl
    | finish t failure =>
      exact (entered _ rfl).trans (changed (·.endTick t.task _ _) (fun _ => rfl) _).symm
    | pass now h hdue => exact ih

theorem Moves.fault? {h : Happening} (hmove : Moves x (some h) y) :
    y.chronicle.fault? i = h.fault? i (x.chronicle.fault? i) := by
  rw [hmove.chronicle]
  exact Chronicle.fault?_concat x.chronicle ⟨x.now, h⟩ i

theorem Moves.fault?_still (hmove : Moves x e y) (hlt : i < x.schedules.length)
    (he : e.bind Happening.resets? ≠ some i) : y.chronicle.fault? i = x.chronicle.fault? i := by
  have apart : ∀ {n : Nat}, some n ≠ some i → n ≠ i := fun hne heq => hne (congrArg some heq)
  cases hmove with
  | add period => exact (Moves.add x period).fault?.trans (if_neg (Nat.ne_of_gt hlt))
  | switch n on fault => exact (Moves.switch x n on fault).fault?.trans (if_neg (apart he))
  | stop n => exact (Moves.stop x n).fault?.trans (if_neg (apart he))
  | store n period => exact (Moves.store x n period).fault?
  | tick n s t observers hs ht hdue => exact (Moves.tick x n s t observers hs ht hdue).fault?
  | shown o => exact (Moves.shown x o).fault?
  | finish t failure ht => exact (Moves.finish x t failure ht).fault?
  | pass => rfl

/-- A schedule is switched on just while it has a task, or a fault has kept it from starting. -/
def Flagged (i : Nat) (x : Timetable) : Prop :=
  ∀ s, x.schedules[i]? = some s →
    s.enabled = (s.task.isSome || (x.chronicle.fault? i).isSome) ∧
      ((x.chronicle.fault? i).isSome → s.task = none)

theorem Moves.flagged_of_absent (hmove : Moves x e y) (hi : x.schedules[i]? = none) :
    Flagged i y := by
  intro s hs
  have changed : ∀ {n : Nat} (f : Schedule → Schedule), (x.change n f).schedules[i]? = none := by
    intro n f
    rw [getElem?_change, hi]
    split <;> rfl
  have absurd_of : ∀ {z : Timetable}, z.schedules[i]? = none → z.schedules[i]? ≠ some s :=
    fun hz hs => by rw [hz] at hs; cases hs
  cases hmove with
  | add period =>
    have hle := List.getElem?_eq_none_iff.mp hi
    have hs : (x.schedules ++ [({ period } : Schedule)])[i]? = some s := hs
    have hlt := (List.getElem?_eq_some_iff.mp hs).1
    rw [List.length_append, List.length_singleton] at hlt
    obtain rfl : x.schedules.length = i := by omega
    rw [List.getElem?_concat_length] at hs
    cases hs
    rw [(Moves.add x period).fault?]
    simp [Happening.fault?]
  | switch | stop | store | tick | finish => exact absurd hs (absurd_of (changed _))
  | shown | pass => exact absurd hs (absurd_of hi)

theorem Flagged.next (h : Flagged i x) (hmove : Moves x e y) : Flagged i y := by
  cases hs : x.schedules[i]? with
  | none => exact hmove.flagged_of_absent hs
  | some s =>
    intro s' hs'
    obtain ⟨henabled, hnone⟩ := h s hs
    obtain ⟨u, hu, hshift⟩ := hmove.shift hs
    obtain rfl := Option.some.inj (hu.symm.trans hs')
    have hlt := (List.getElem?_eq_some_iff.mp hs).1
    have kept := hmove.fault?_still hlt
    cases hshift with
    | still he henabled' htask =>
      rw [kept he, henabled', htask]
      exact ⟨henabled, hnone⟩
    | switched on fault =>
      rw [hmove.fault?, Happening.fault?, if_pos rfl]
      cases on <;> cases fault <;> simp [Schedule.setEnabled]
    | stopped =>
      rw [hmove.fault?, Happening.fault?, if_pos rfl]
      exact ⟨rfl, fun h => by cases h⟩
    | begun t observers ht =>
      rw [kept (by simp [Happening.resets?])]
      refine ⟨?_, fun hf => absurd (hnone hf) (by simp [ht])⟩
      rw [Schedule.beginTick, Option.isSome_map]
      exact henabled
    | finished t failure =>
      rw [kept (by simp [Happening.resets?])]
      refine ⟨?_, fun hf => ?_⟩
      · rw [Schedule.endTick, Option.isSome_map]
        exact henabled
      · rw [Schedule.endTick, hnone hf]
        rfl

section cut
variable {before mid rest : Chronicle} {h : Happened}

/-- Where a chronicle is cut by `h`, and what happens to schedule `i` from there on steadily. -/
theorem Reachable.cut (hx : x.Reachable) (hl : x.chronicle = before ++ h :: (mid ++ rest))
    (hmid : mid.Spares i) : ∃ u v w, u.Reachable ∧ u.chronicle = before ∧ u.now = h.moment ∧
      Moves u (some h.what) v ∧ Steady i v w ∧
      w.chronicle = before ++ h :: mid ∧ w.now = rest.beginning x.now ∧ Run w x := by
  obtain ⟨now, turn, hrun⟩ := hx.exists_run
  obtain ⟨u, v, hu, hbefore, hnow, hmove, hv⟩ := hrun.split_cons hl
  have hcut : v.chronicle = before ++ [h] := by
    rw [hmove.chronicle, hbefore, hnow]
    rfl
  have hwhole : x.chronicle = v.chronicle ++ mid ++ rest := by
    rw [hl, hcut, List.append_assoc, List.append_assoc]
    rfl
  obtain ⟨w, hw, hmiddle, hend, hlast⟩ := hv.split hwhole
  refine ⟨u, v, w, hu.reachable (.initial now turn), hbefore, hnow, hmove, hw.steady hmiddle hmid,
    ?_, hend, hlast⟩
  rw [hmiddle, hcut, List.append_assoc]
  rfl

/-- **A task ticks on its beat**, from its start until its schedule is switched or stopped; its
number is new. -/
theorem Reachable.beats (hx : x.Reachable) (hinstant : x.chronicle.Instant x.now)
    (hl : x.chronicle = before ++ h :: (mid ++ rest)) (hstarts : h.what.starts? = some i)
    {period : Duration} (hperiod : before.period? i = some period) (hmid : mid.Spares i) :
    ∃ id k, (∀ t ∈ before.ticks, t.task < id) ∧
      mid.ticksOf i = beats i id period h.moment k ∧
      h.moment + k * period.nanos ≤ rest.beginning x.now ∧
      rest.beginning x.now ≤ h.moment + (k + 1) * period.nanos := by
  obtain ⟨u, v, w, hu, hbefore, hnow, hmove, hsteady, hmiddle, hend, hlast⟩ := hx.cut hl hmid
  subst hbefore
  rw [Happening.eq_of_starts? hstarts] at hmove
  have hsound : v.Sound := hu.sound.next hmove
  rw [hu.period? i] at hperiod
  obtain ⟨s, hs, rfl⟩ := Option.map_eq_some_iff.mp hperiod
  have hbeat : OnBeat i u.turn s.period u.now (u.chronicle.ticksOf i) v := by
    cases hmove
    exact onBeat_switch hu.sound hs
  have hw := hsteady.run.sound hsound
  obtain ⟨k, hticks, hle, hlt⟩ :=
    (hsteady.onBeat hsound hbeat (hlast.instant hw hinstant)).ticks hw
  refine ⟨u.turn, k, fun t ht => (hu.sound.begun t ht).1, ?_, ?_⟩
  · rw [hmiddle, Chronicle.ticksOf_cut _ (Happening.resets?_of_starts? hstarts)] at hticks
    exact hnow ▸ List.append_cancel_left hticks
  · rw [← hnow, ← hend]
    exact ⟨hle, hlt⟩

theorem Reachable.untouched (hx : x.Reachable) (hl : x.chronicle = mid ++ rest)
    (hmid : mid.Spares i) : mid.ticksOf i = [] := by
  obtain ⟨now, turn, hrun⟩ := hx.exists_run
  have hwhole : x.chronicle = [] ++ mid ++ rest := hl
  obtain ⟨u, hu, hmiddle, -⟩ := hrun.split hwhole
  have hrests : Resting i [] ⟨[], now, turn, []⟩ := by
    refine ⟨fun s hs => ?_, rfl⟩
    cases hs
  rw [← ((hu.steady hmiddle hmid).resting hrests).2, hmiddle]
  rfl

end cut

end ConnectionLeasing.Timetable

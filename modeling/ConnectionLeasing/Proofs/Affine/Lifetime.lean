import ConnectionLeasing.Proofs.Affine.Passage
import ConnectionLeasing.Proofs.Life

/-!
# What a context-affine manager does with handles

Every handle in a slot is open, so a handle that is lent or taken out of its slot is open at that
moment. Hence the trace of a run is lawful as long as checks and disconnects do not call back.
-/

namespace ConnectionLeasing.Affine

def Event.milestone? : Event → Option Milestone
  | answered _ (.connect ..) c => some c.milestone
  | called _ (.disconnect h) => some (.disconnected h)
  | returned _ (.lent h) => some (.lent h)
  | _ => none

namespace System

/-- What has been seen of handles. -/
def milestones (m : System) : List Milestone := m.events.filterMap Event.milestone?

section traces
variable {m : System} {h : Handle}

theorem disconnected_mem_iff : .disconnected h ∈ m.milestones ↔ h ∈ m.disconnected := by
  simp only [milestones, disconnected, List.mem_filterMap]
  refine exists_congr fun e => and_congr_right fun _ => ?_
  cases e with
  | called k call => cases call <;> simp [Event.milestone?, Event.disconnected?]
  | answered k call a =>
    cases call with
    | connect channel i timeout =>
      cases hf : a.failure <;> simp [Event.milestone?, Event.disconnected?, Connected.milestone, hf]
    | visit | tick | check | disconnect => simp [Event.milestone?, Event.disconnected?]
  | returned k r => cases r <;> simp [Event.milestone?, Event.disconnected?]

theorem connected_mem_iff : .connected h ∈ m.milestones ↔ ∃ i, (i, h) ∈ m.opened := by
  simp only [milestones, opened, List.mem_filterMap]
  rw [exists_comm]
  refine exists_congr fun e => ?_
  cases e with
  | called k call => cases call <;> simp [Event.milestone?, Event.opened?]
  | answered k call a =>
    cases call with
    | connect channel i timeout =>
      cases hf : a.failure <;>
        simp [Event.milestone?, Event.opened?, Call.opened?, Connected.milestone, hf]
    | visit | tick | check | disconnect =>
      simp [Event.milestone?, Event.opened?, Call.opened?]
  | returned k r => cases r <;> simp [Event.milestone?, Event.opened?]

theorem built_iff : h ∈ m.built ↔ Begun m.milestones h := by
  simp only [milestones, built, Begun, List.mem_filterMap, ← exists_or, ← and_or_left]
  refine exists_congr fun e => and_congr_right fun _ => ?_
  cases e with
  | called k call => cases call <;> simp [Event.milestone?, Event.built?]
  | answered k call a =>
    cases call with
    | connect channel i timeout =>
      cases hf : a.failure <;> simp [Event.milestone?, Event.built?, Connected.milestone, hf]
    | visit | tick | check | disconnect => simp [Event.milestone?, Event.built?]
  | returned k r => cases r <;> simp [Event.milestone?, Event.built?]

end traces

section moves
variable {m : System} {g g' : Stage} {o : Option Command} {k : Command} {seen : List Event}
  {rest : List Ongoing} {step : Step}

/-- The system once the answer to a call has been seen. -/
def saw (m : System) (seen : List Event) : System := { m with events := m.events ++ seen }

theorem milestones_moved : (m.moved k seen rest step).milestones =
    (m.saw seen).milestones ++ (shown k step.2).milestone?.toList := by
  cases h : (shown k step.2).milestone? <;> simp [milestones, moved, saw, h]

theorem milestones_saw :
    (m.saw seen).milestones = m.milestones ++ seen.filterMap Event.milestone? :=
  List.filterMap_append

theorem opened_saw (m : System) (k : Command) (seen : List Event) (rest : List Ongoing)
    (step : Step) : (m.saw seen).opened = (m.moved k seen rest step).opened := by
  rw [opened_moved]
  exact List.filterMap_append

theorem disconnected_saw (hseen : seen.filterMap Event.disconnected? = []) :
    (m.saw seen).disconnected = m.disconnected := by
  rw [disconnected, saw, List.filterMap_append, hseen, List.append_nil]
  rfl

theorem Good.opened_closing (hg : (m.moved k seen rest step).Good True g')
    (hseen : seen.filterMap Event.disconnected? = []) {c : Closing}
    (hc : closingOf step.2 = some c) : Opened (m.saw seen).milestones c.handle := by
  have hasked : (m.moved k seen rest step).disconnected = m.disconnected ++ [c.handle] := by
    rw [disconnected_moved hseen, hc]
    rfl
  have ha := (hg.sound trivial).accounted
  have hmem : c.handle ∈ g'.disconnected := by
    rw [hg.disconnected, hasked]
    exact List.mem_append_right _ (List.mem_singleton_self _)
  obtain ⟨i, hi⟩ := ha.past _ hmem
  refine ⟨?_, fun hbefore => ?_⟩
  · rw [connected_mem_iff, opened_saw m k seen rest step, ← hg.opened]
    exact ⟨i, hi⟩
  · rw [disconnected_mem_iff, disconnected_saw hseen] at hbefore
    have honce : g'.disconnected.count c.handle = 1 :=
      (ha.asked _ hi).resolve_left fun ⟨id, hid⟩ => ha.unasked id _ hid hmem
    have hpos := List.count_pos_iff.mpr hbefore
    rw [hg.disconnected, hasked, List.count_append, List.count_singleton_self] at honce
    omega

theorem Good.opened_lent (hg : (m.moved k seen rest step).Good True g')
    (hseen : seen.filterMap Event.disconnected? = []) (hnone : closingOf step.2 = none)
    {i : Identity} {c : ContextId} {h : Handle} (hlent : g'.Lent i c h) :
    Opened (m.saw seen).milestones h := by
  obtain ⟨e, id, -, -, hid, -⟩ := hlent
  have ha := (hg.sound trivial).accounted
  obtain ⟨-, j, -, -, hj⟩ := ha.held id h hid
  refine ⟨?_, fun hbefore => ha.unasked id h hid ?_⟩
  · rw [connected_mem_iff, opened_saw m k seen rest step, ← hg.opened]
    exact ⟨j, hj⟩
  · rw [disconnected_mem_iff, disconnected_saw hseen] at hbefore
    rw [hg.disconnected, disconnected_moved hseen, hnone, Option.toList_none, List.map_nil,
      List.append_nil]
    exact hbefore

theorem lawful_answered (hl : Lawful m.milestones) {call : Call} {a : call.Answer}
    (ha : m.Admits call a) : Lawful (m.saw [.answered k call a]).milestones := by
  rw [milestones_saw]
  cases call with
  | connect channel i timeout =>
    refine lawful_answer hl fun hbegun => ?_
    exact ha.1 (built_iff.mpr hbegun)
  | visit | tick | check | disconnect =>
    rw [show [Event.answered k _ a].filterMap Event.milestone? = [] from rfl, List.append_nil]
    exact hl

/-- What a move lends or asks to disconnect is open until then. -/
theorem Passage.lawful (hp : Passage True m o (m.moved k seen rest step) g g')
    (hseen : ∀ e ∈ seen, e.disconnected? = none) (hl : Lawful (m.saw seen).milestones) :
    Lawful (m.moved k seen rest step).milestones := by
  have hnone : seen.filterMap Event.disconnected? = [] := List.filterMap_eq_nil_iff.mpr hseen
  rw [milestones_moved]
  cases hstep : step.2 with
  | paused f =>
    cases f with
    | closing c after =>
      exact .disconnect c.handle hl (hp.good.opened_closing hnone (by rw [hstep]; rfl))
    | telling | ticking | checkingOwn | recheckingOwn | checkingOther | opening =>
      rwa [show (shown k _).milestone? = none from rfl, Option.toList_none, List.append_nil]
  | done r =>
    cases r with
    | lent h =>
      obtain ⟨E, hE, hlent⟩ := hp.lent
      have hlast : .returned k (.lent h) ∈ E := by
        have hevents : m.events ++ (seen ++ [shown k step.2]) = m.events ++ E := by
          rw [← List.append_assoc]
          exact hE
        rw [← List.append_cancel_left hevents, hstep]
        exact List.mem_append_right _ (List.mem_singleton_self _)
      obtain ⟨r, -, hlent⟩ := hlent trivial _ hlast h rfl
      exact .lend h hl (hp.good.opened_lent hnone (by rw [hstep]; rfl) hlent)
    | refused | released | closed | swept | closedAll | told =>
      rwa [show (shown k _).milestone? = none from rfl, Option.toList_none, List.append_nil]

end moves

end System

/-- **The trace of a run is lawful** while checks and disconnects do not call back. -/
theorem Reachable.lawful {m : System} (hm : Reachable .calm m) : Lawful m.milestones := by
  induction hm with
  | initial settings factory now => exact .nil
  | @next m m' k hm hmove ih =>
    obtain ⟨g, hg⟩ := hm.calm_good
    obtain ⟨g', hp⟩ := hg.next (fun _ _ _ h => h) hmove
    cases hmove with
    | start k hk =>
      refine hp.lawful (by simp) ?_
      rwa [System.milestones_saw, List.filterMap_nil, List.append_nil]
    | resume before o later a hongoing ho ha =>
      exact hp.lawful (by simp [Event.disconnected?]) (System.lawful_answered ih ha)
    | fail before o later hongoing ho htells => exact ih
    | attach o => exact ih
    | pass t ht => exact ih

end ConnectionLeasing.Affine

import ConnectionLeasing.Proofs.Affine.Tally
import ConnectionLeasing.Proofs.Affine.Trimming
import Mathlib.Data.List.Perm.Basic

/-!
# Checks against a sweep

The slot of one context can be checked by itself, as the inspector does at every call of that
context. Two codes apply the timeouts then: a check asks for one verdict on one slot, a sweep makes
a pass for each timeout over all of them. They agree. What a check does to its slot does not touch
the others, so checks of all contexts add up, in whatever order they are made.

* `State.Inspected`: the slots of some contexts have been checked.
* `Inspected.cons`: checks add up.
* `performs_check`, `performs_checks`: one check, and checks of some contexts. `Checks.unique`: they
  come to nothing else.
* `State.verdictOn_iff`: what the verdicts say of a sweep that closes nothing for the limit.
* `checks_amount_to_sweep`: checks of all contexts and one sweep.
-/

namespace ConnectionLeasing

/-- Whether a call is a disconnect that fails. -/
def Behaviour.fails (b : Behaviour) (call : Call) : Bool :=
  call.disconnected?.any fun h => (b.complaint? h).isSome

theorem Exchange.failed_eq {b : Behaviour} {x : Exchange} (hx : x.Suits b) :
    x.failed = b.fails x.call := by
  obtain ⟨n, hanswer⟩ := hx
  obtain ⟨call, answer⟩ := x
  cases call with
  | disconnect h => exact congrArg Option.isSome hanswer
  | _ => rfl

theorem Exchange.failures_eq {b : Behaviour} {seen : List Exchange}
    (hseen : ∀ x ∈ seen, x.Suits b) : failures seen = (seen.map (·.call)).countP b.fails := by
  rw [failures, List.countP_map]
  refine List.countP_congr fun x hx => ?_
  rw [failed_eq (hseen x hx)]
  rfl

namespace Affine

variable {b : Behaviour} {s s' s₁ : State} {now n e : Nat} {i : Identity} {o : Operation}
  {k : ContextId × Nat} {ks : List (ContextId × Nat)} {calls calls' : List Call}

/-! ### One check -/

/-- A check of the slot of a context, as the inspector makes it. -/
def checkSlot (s : State) (now : Nat) (a : Announcement) : Step :=
  tell now ⟨a, .tell⟩ s [.inspector]

/-- The verdict that a check returns. A context without an open slot has nothing to lose. -/
def checkVerdict (s : State) (now : Nat) (a : Announcement) : Verdict :=
  match (s.registry.entryId? a.identity).bind fun e => s.ownClosing? a.identity e a.context with
  | none => .keep
  | some c =>
    ((s.slot? c.slot).map fun x =>
      s.policy.verdict x.borrowed x.borrowTime x.releaseTime now).getD .keep

/-- The verdict that has been written down since, as the inspector does with what a check has
returned; that a slot is kept is not written down. -/
def State.verdictSince (s s' : State) : Verdict :=
  ((s'.journal.toList.drop s.journal.size).findSome? Notice.verdict?).getD .keep

theorem State.verdictSince_eq {l : List Notice}
    (h : s'.journal.toList = s.journal.toList ++ l) :
    s.verdictSince s' = (l.findSome? Notice.verdict?).getD .keep := by
  rw [verdictSince, h, ← Array.length_toList, List.drop_left]

theorem State.verdictSince_afterInspection (s : State) (c : Closing) (failure : Option LeaseError)
    (a : Announcement) :
    s.verdictSince (afterInspection ((s.beginClosing c).finishClosing c failure) a) = .close := by
  cases failure with
  | none =>
    refine State.verdictSince_eq (l := [.removed c.identity c.owner,
      .idleTimedOut a.identity a.context, .inspected a.identity a.context .close]) ?_
    simp [afterInspection, finishClosing, note, count, beginClosing, mapSlot]
  | some error =>
    refine State.verdictSince_eq (l := [.disconnectFailed c.identity c.owner error,
      .removed c.identity c.owner, .idleTimedOut a.identity a.context,
      .inspected a.identity a.context .close]) ?_
    simp [afterInspection, finishClosing, note, count, beginClosing, mapSlot]

/-- What the timeouts say about a slot. -/
def State.verdictOn (s : State) (now id : Nat) : Verdict :=
  if s.isOverdue now id then .release else if s.isStale now id then .close else .keep

theorem State.verdictOn_eq_release {id : Nat} :
    s.verdictOn now id = .release ↔ s.isOverdue now id = true := by
  unfold verdictOn
  split
  · simp_all
  · split <;> simp_all

theorem State.verdictOn_eq_close {id : Nat} :
    s.verdictOn now id = .close ↔ s.isStale now id = true := by
  unfold verdictOn
  split
  · rename_i hdue
    simp [isStale_of_isOverdue hdue]
  · split <;> simp_all

theorem State.map_verdict {id : Nat} {x : Slot} (hx : s.slot? id = some x) :
    ((s.slot? id).map fun x => s.policy.verdict x.borrowed x.borrowTime x.releaseTime now) =
      some (s.verdictOn now id) := by
  have hdue : s.isOverdue now id = (x.borrowed && s.policy.borrowExpired x.borrowTime now) := by
    rw [isOverdue, hx, Option.any_some]
  have hstale : s.isStale now id = (!x.borrowed && s.policy.idleExpired x.releaseTime now) := by
    rw [isStale, hx, Option.any_some]
  rw [hx, Option.map_some, verdictOn, hdue, hstale, RetentionPolicy.verdict]
  cases x.borrowed <;> simp

/-- The slots of some contexts of an entry have been checked. -/
structure State.Inspected (s : State) (b : Behaviour) (now e : Nat) (ks : List (ContextId × Nat))
    (calls : List Call) (s' : State) : Prop where
  settings : s'.settings = s.settings
  known : s'.registry.known = s.registry.known
  slotsOf : s'.slotsOf e = (s.slotsOf e).filter fun k => ¬(k ∈ ks ∧ s.isStale now k.2 = true)
  aged : ∀ k ∈ ks, s.isStale now k.2 = false → s'.slot? k.2 = s.aged? now k.2
  closed : ∀ k ∈ ks, s.isStale now k.2 = true → s'.handle? k.2 = none
  elsewhere : ∀ id, id ∉ ks.map (·.2) → s'.slot? id = s.slot? id
  asked : calls.map (·.disconnected?) =
    (ks.filter fun k => s.isStale now k.2).map fun k => s.handle? k.2
  ledger : s'.ledger = { s.ledger with
    evictedReleased := s.ledger.evictedReleased + ks.countP fun k => s.isOverdue now k.2
    evictedClosed := s.ledger.evictedClosed + ks.countP fun k => s.isStale now k.2
    disconnectFailures := s.ledger.disconnectFailures + calls.countP b.fails }

theorem State.Inspected.nil (s : State) (b : Behaviour) (now e : Nat) :
    s.Inspected b now e [] [] s where
  settings := rfl
  known := rfl
  slotsOf := (List.filter_eq_self.mpr fun k _ => by simp).symm
  aged k hk := absurd hk List.not_mem_nil
  closed k hk := absurd hk List.not_mem_nil
  elsewhere _ _ := rfl
  asked := rfl
  ledger := rfl

theorem State.Inspected.cons (h : s.Inspected b now e [k] calls s₁)
    (h' : s₁.Inspected b now e ks calls' s') (hn : k.2 ∉ ks.map (·.2)) :
    s.Inspected b now e (k :: ks) (calls ++ calls') s' := by
  have hslot : ∀ k' ∈ ks, s₁.slot? k'.2 = s.slot? k'.2 := fun k' hk' =>
    h.elsewhere k'.2 fun hmem => hn (by
      rw [List.map_singleton, List.mem_singleton] at hmem
      exact hmem ▸ List.mem_map_of_mem hk')
  have hstale : ∀ k' ∈ ks, s₁.isStale now k'.2 = s.isStale now k'.2 := fun k' hk' =>
    State.isStale_congr (hslot k' hk') h.settings
  have hself : s'.slot? k.2 = s₁.slot? k.2 := h'.elsewhere k.2 hn
  refine ⟨h'.settings.trans h.settings, h'.known.trans h.known, ?_, fun k' hk' hfresh => ?_,
    fun k' hk' hold => ?_, fun id hid => ?_, ?_, ?_⟩
  · rw [h'.slotsOf, h.slotsOf, List.filter_filter]
    refine List.filter_congr fun k' _ => ?_
    have hboth : (k' ∈ ks ∧ s₁.isStale now k'.2 = true) ↔ k' ∈ ks ∧ s.isStale now k'.2 = true :=
      and_congr_right fun hk' => by rw [hstale k' hk']
    rw [← Bool.decide_and, decide_eq_decide, hboth]
    simp only [List.mem_cons, List.not_mem_nil, or_false]
    tauto
  · rcases List.mem_cons.mp hk' with rfl | hk'
    · rw [hself]
      exact h.aged k' List.mem_cons_self hfresh
    · rw [h'.aged k' hk' ((hstale k' hk').trans hfresh)]
      exact State.aged?_congr (hslot k' hk') h.settings
  · rcases List.mem_cons.mp hk' with rfl | hk'
    · rw [State.handle?, hself]
      exact h.closed k' List.mem_cons_self hold
    · exact h'.closed k' hk' ((hstale k' hk').trans hold)
  · rw [List.map_cons, List.mem_cons, not_or] at hid
    rw [h'.elsewhere id hid.2, h.elsewhere id (by simpa using hid.1)]
  · have hrest : (ks.filter fun k => s₁.isStale now k.2) = ks.filter fun k => s.isStale now k.2 :=
      List.filter_congr hstale
    rw [List.map_append, h.asked, h'.asked, hrest, ← List.singleton_append (l := ks),
      List.filter_append, List.map_append]
    refine congrArg (_ ++ ·) (List.map_congr_left fun k' hk' => ?_)
    rw [State.handle?, hslot k' (List.mem_of_mem_filter hk'), State.handle?]
  · have hdue : (ks.countP fun k => s₁.isOverdue now k.2) =
        ks.countP fun k => s.isOverdue now k.2 :=
      List.countP_congr fun k' hk' => by rw [State.isOverdue_congr (hslot k' hk') h.settings]
    have hold : (ks.countP fun k => s₁.isStale now k.2) = ks.countP fun k => s.isStale now k.2 :=
      List.countP_congr fun k' hk' => by rw [hstale k' hk']
    rw [h'.ledger, h.ledger, hdue, hold, ← List.singleton_append (l := ks), List.countP_append,
      List.countP_append, List.countP_append, Nat.add_assoc, Nat.add_assoc, Nat.add_assoc]

theorem State.Inspected.of_fresh (hfresh : s.isStale now k.2 = false)
    (hsettings : s'.settings = s.settings) (hregistry : s'.registry = s.registry)
    (hslot : s'.slot? k.2 = s.aged? now k.2)
    (helsewhere : ∀ id, k.2 ≠ id → s'.slot? id = s.slot? id)
    (hledger : s'.ledger = { s.ledger with
      evictedReleased := s.ledger.evictedReleased + if s.isOverdue now k.2 then 1 else 0 }) :
    s.Inspected b now e [k] [] s' where
  settings := hsettings
  known := by rw [hregistry]
  slotsOf := by
    rw [State.slotsOf, hregistry]
    refine (List.filter_eq_self.mpr fun k' _ => ?_).symm
    rw [decide_eq_true_eq]
    rintro ⟨hk', hstale⟩
    rw [List.mem_singleton.mp hk', hfresh] at hstale
    cases hstale
  aged k' hk' _ := by rw [List.mem_singleton.mp hk', hslot]
  closed k' hk' hstale := by
    rw [List.mem_singleton.mp hk', hfresh] at hstale
    cases hstale
  elsewhere id hid := helsewhere id fun heq => hid (by simp [heq])
  asked := by simp [hfresh]
  ledger := by simp [hledger, hfresh, List.countP_singleton]

theorem State.Inspected.of_stale (hstale : s.isStale now k.2 = true) {x : Exchange}
    (h : s.Closes e [k] [x] s₁) (hx : x.Suits b) (journal : Journal) :
    s.Inspected b now e [k] [x.call] { s₁ with
      ledger := { s₁.ledger with evictedClosed := s₁.ledger.evictedClosed + 1 }, journal } where
  settings := h.settings
  known := h.known
  slotsOf := by
    refine h.slotsOf.trans (List.filter_congr fun k' _ => ?_)
    rw [decide_eq_decide, List.mem_singleton]
    refine not_congr ⟨fun heq => ⟨heq, heq ▸ hstale⟩, And.left⟩
  aged k' hk' hfresh := by
    rw [List.mem_singleton.mp hk', hstale] at hfresh
    cases hfresh
  closed k' hk' _ := h.closed k' hk'
  elsewhere id hid := h.slot? id hid
  asked := by
    have hone : ([k].filter fun k => s.isStale now k.2) = [k] := by simp [hstale]
    rw [hone]
    exact h.calls
  ledger := by
    have hintime := State.isOverdue_of_isStale hstale
    have hfailures : Exchange.failures [x] = [x.call].countP b.fails :=
      Exchange.failures_eq fun y hy => List.mem_singleton.mp hy ▸ hx
    simp [h.ledger, hfailures, hstale, hintime, List.countP_singleton]

section check
variable (he : s.registry.entryId? i = some e) (hs : s.Live e) (hk : k ∈ s.slotsOf e)
include he hs hk

theorem inspect_eq (now : Nat) (o : Operation) : ∃ h, s.openHandle? k.1 k.2 = some h ∧
    checkVerdict s now ⟨o, i, k.1⟩ = s.verdictOn now k.2 ∧
    inspect s now ⟨o, i, k.1⟩ = match s.verdictOn now k.2 with
      | .keep => (s, none)
      | .release =>
        ((((s.mapSlot k.2 (·.markIdle now)).count fun l =>
          { l with evictedReleased := l.evictedReleased + 1 }).note
            (.borrowTimedOut i k.1)).note (.inspected i k.1 .release), none)
      | .close => (s, some ⟨i, e, k.2, k.1, h⟩) := by
  obtain ⟨x, h, hx, hopen⟩ := hs.slot? hk
  have hhandle : s.openHandle? k.1 k.2 = some h := Option.bind_eq_some_iff.mpr ⟨x, hx, hopen⟩
  have hget : (s.registry.entry e).slot? k.1 = some k.2 :=
    (Keyed.get?_eq_some_iff hs.keys k.1 k.2).mpr hk
  have hown : s.ownClosing? i e k.1 = some ⟨i, e, k.2, k.1, h⟩ := by
    rw [State.ownClosing?, hget, Option.bind_some, hhandle, Option.map_some]
  refine ⟨h, hhandle, ?_, ?_⟩
  · rw [checkVerdict, he, Option.bind_some, hown]
    dsimp only
    rw [State.map_verdict hx, Option.getD_some]
  · rw [inspect]
    dsimp only
    rw [he, Option.bind_some, hown]
    dsimp only
    rw [State.map_verdict hx]
    cases s.verdictOn now k.2 <;> rfl

theorem performs_check (now : Nat) (b : Behaviour) (n : Nat) (o : Operation) : ∃ calls s',
    (checkSlot s now ⟨o, i, k.1⟩).Performs b now n calls s' .told ∧
      checkVerdict s now ⟨o, i, k.1⟩ = s.verdictOn now k.2 ∧
      s.verdictSince s' = s.verdictOn now k.2 ∧ s.Inspected b now e [k] calls s' := by
  obtain ⟨h, hhandle, hverdict, hinspect⟩ := inspect_eq he hs hk now o
  rw [checkSlot, tell, hinspect, hverdict]
  by_cases hdue : s.isOverdue now k.2 = true
  · have hfresh : s.isStale now k.2 = false := State.isStale_of_isOverdue hdue
    have hv : s.verdictOn now k.2 = .release := if_pos hdue
    rw [hv]
    refine ⟨[], _, .done _ _ _, rfl, ?_, .of_fresh hfresh rfl rfl ?_ (fun id hid => ?_) ?_⟩
    · rw [State.verdictSince_eq
        (l := [.borrowTimedOut i k.1, .inspected i k.1 .release]) (by simp [State.note]; rfl)]
      rfl
    · rw [State.aged?_of_overdue hdue]
      exact State.slot?_mapSlot_self s k.2 _
    · exact State.slot?_mapSlot_of_ne s _ hid
    · rw [if_pos hdue]
      rfl
  · have hintime : s.isOverdue now k.2 = false := Bool.eq_false_iff.mpr hdue
    by_cases hstale : s.isStale now k.2 = true
    · have hv : s.verdictOn now k.2 = .close := (if_neg hdue).trans (if_pos hstale)
      have hcloses := hs.closes (c := ⟨i, e, k.2, k.1, h⟩) rfl hk hhandle (b.complaint? h)
      rw [hv]
      refine ⟨[.disconnect h], _, .paused (.done _ _ _), rfl, ?_,
        .of_stale hstale hcloses ⟨n, rfl⟩ _⟩
      exact s.verdictSince_afterInspection _ (b.complaint? h) _
    · have hfresh : s.isStale now k.2 = false := Bool.eq_false_iff.mpr hstale
      have hv : s.verdictOn now k.2 = .keep := (if_neg hdue).trans (if_neg hstale)
      rw [hv]
      refine ⟨[], s, .done _ _ _, rfl, State.verdictSince_eq (l := []) (List.append_nil _).symm,
        .of_fresh hfresh rfl rfl ?_ (fun _ _ => rfl) ?_⟩
      · rw [State.aged?_of_not_overdue hintime]
      · simp [hdue]

end check

/-! ### Checks of some contexts -/

section inspected
variable (h : s.Inspected b now e ks calls s') (hs : s.Live e) (hks : ks ⊆ s.slotsOf e)
include h hs hks

theorem State.Inspected.left {k : ContextId × Nat} (hk : k ∈ s'.slotsOf e) : k ∈ s.slotsOf e ∧
    s'.slot? k.2 = if k ∈ ks then s.aged? now k.2 else s.slot? k.2 := by
  rw [h.slotsOf, List.mem_filter, decide_eq_true_eq] at hk
  obtain ⟨hmem, hfresh⟩ := hk
  refine ⟨hmem, ?_⟩
  split
  · rename_i hchecked
    exact h.aged k hchecked (Bool.eq_false_iff.mpr fun hstale => hfresh ⟨hchecked, hstale⟩)
  · rename_i hother
    refine h.elsewhere k.2 fun hid => ?_
    obtain ⟨k', hk', heq⟩ := List.mem_map.mp hid
    exact hother (hs.inj (hks hk') hmem heq ▸ hk')

theorem State.Inspected.live : s'.Live e := by
  have hsub : (s'.slotsOf e).Sublist (s.slotsOf e) := h.slotsOf ▸ List.filter_sublist
  refine ⟨hs.keys.sublist (hsub.map _), hs.ids.sublist (hsub.map _), fun k hk => ?_⟩
  obtain ⟨hmem, hslot⟩ := h.left hs hks hk
  obtain ⟨x, hx⟩ := hs.opened k hmem
  refine ⟨x, ?_⟩
  rw [State.openHandle?, hslot]
  split
  · exact (bind_aged? (fun _ => rfl) k.2).trans hx
  · exact hx

end inspected

/-- Checks of the slots of some contexts, one after the other, return these verdicts, as the journal
shows, make these calls and leave this state. -/
inductive Checks (b : Behaviour) (now : Nat) (i : Identity) (o : Operation) :
    Nat → State → List ContextId → List (ContextId × Verdict) → List Call → State → Prop
  | nil (n : Nat) (s : State) : Checks b now i o n s [] [] [] s
  | cons {n : Nat} {s s₁ s' : State} {c : ContextId} {order : List ContextId}
    {verdicts : List (ContextId × Verdict)} {calls calls' : List Call}
    (h : (checkSlot s now ⟨o, i, c⟩).Performs b now n calls s₁ .told)
    (hshown : s.verdictSince s₁ = checkVerdict s now ⟨o, i, c⟩)
    (hrest : Checks b now i o (Call.next n calls) s₁ order verdicts calls' s') :
    Checks b now i o n s (c :: order) ((c, checkVerdict s now ⟨o, i, c⟩) :: verdicts)
      (calls ++ calls') s'

theorem Checks.unique {order : List ContextId} {verdicts verdicts' : List (ContextId × Verdict)}
    (h : Checks b now i o n s order verdicts calls s₁)
    (h' : Checks b now i o n s order verdicts' calls' s') :
    verdicts' = verdicts ∧ calls' = calls ∧ s' = s₁ := by
  induction h generalizing verdicts' calls' s' with
  | nil =>
    cases h'
    exact ⟨rfl, rfl, rfl⟩
  | cons h _ _ ih =>
    cases h' with
    | cons h' _ hrest' =>
      obtain ⟨rfl, rfl, -⟩ := h.unique h'
      obtain ⟨rfl, rfl, rfl⟩ := ih hrest'
      exact ⟨rfl, rfl, rfl⟩

/-- What the timeouts said about the slots before any of them was checked, they say of each when its
turn has come. -/
theorem performs_checks (he : s.registry.entryId? i = some e) (hs : s.Live e)
    (hks : ks ⊆ s.slotsOf e) (hn : (ks.map (·.2)).Nodup) (now : Nat) (b : Behaviour) (n : Nat)
    (o : Operation) :
    ∃ calls s', Checks b now i o n s (ks.map (·.1)) (ks.map fun k => (k.1, s.verdictOn now k.2))
      calls s' ∧ s.Inspected b now e ks calls s' := by
  induction ks generalizing s n with
  | nil => exact ⟨[], s, .nil n s, .nil s b now e⟩
  | cons k ks ih =>
    rw [List.map_cons, List.nodup_cons] at hn
    have hone : [k] ⊆ s.slotsOf e := by simpa using hks List.mem_cons_self
    obtain ⟨calls, s₁, hcheck, hverdict, hshown, h₁⟩ :=
      performs_check he hs (hks List.mem_cons_self) now b n o
    have hne : ∀ k' ∈ ks, k'.2 ≠ k.2 := fun k' hk' heq => hn.1 (heq ▸ List.mem_map_of_mem hk')
    have hslot : ∀ k' ∈ ks, s₁.slot? k'.2 = s.slot? k'.2 := fun k' hk' =>
      h₁.elsewhere k'.2 (by simpa using hne k' hk')
    have hrest : ks ⊆ s₁.slotsOf e := fun k' hk' => by
      rw [h₁.slotsOf, List.mem_filter, decide_eq_true_eq, List.mem_singleton]
      exact ⟨hks (List.mem_cons_of_mem _ hk'), fun h => hne k' hk' (by rw [h.1])⟩
    have he₁ : s₁.registry.entryId? i = some e := by
      rw [Registry.entryId?, h₁.known]
      exact he
    obtain ⟨calls', s', hchecks, h'⟩ := ih he₁ (h₁.live hs hone) hrest hn.2 (Call.next n calls)
    refine ⟨calls ++ calls', s', ?_, h₁.cons h' hn.1⟩
    have hverdicts : (ks.map fun k => (k.1, s₁.verdictOn now k.2)) =
        ks.map fun k => (k.1, s.verdictOn now k.2) := List.map_congr_left fun k' hk' => by
      rw [State.verdictOn, State.isOverdue_congr (hslot k' hk') h₁.settings,
        State.isStale_congr (hslot k' hk') h₁.settings, State.verdictOn]
    rw [hverdicts] at hchecks
    rw [List.map_cons, List.map_cons, ← hverdict]
    exact .cons hcheck (hshown.trans hverdict.symm) hchecks

/-! ### Checks of all contexts -/

theorem State.isOverdue_iff_released {id : Nat} (h : s'.slot? id = s.aged? now id) :
    s.isOverdue now id = true ↔ s.isLent id = true ∧ s'.isLent id = false := by
  constructor
  · intro hdue
    obtain ⟨x, hx, hlate⟩ := (Option.any_eq_true _ _).mp hdue
    rw [Bool.and_eq_true] at hlate
    rw [isLent, isLent, h, aged?_of_overdue hdue, hx, Option.any_some, Option.map_some,
      Option.any_some]
    exact ⟨hlate.1, rfl⟩
  · rintro ⟨hlent, hidle⟩
    by_contra hintime
    rw [isLent, h, aged?_of_not_overdue (Bool.eq_false_iff.mpr hintime)] at hidle
    exact Bool.false_ne_true (hidle.symm.trans hlent)

section few
variable (hfew : ((s.slotsOf e).countP fun k => !s.isStale now k.2) ≤ s.policy.maxConnections)
include hfew

theorem State.surplus_eq_nil : s.surplus now e = [] := by
  have hlength := List.length_eq_countP_add_countP (fun k => s.isStale now k.2) (l := s.slotsOf e)
  have hstale : (s.stale now e).length = (s.slotsOf e).countP fun k => s.isStale now k.2 :=
    List.countP_eq_length_filter.symm
  have hzero : (s.slotsOf e).length - (s.stale now e).length - s.policy.maxConnections = 0 := by
    simp only [Bool.not_eq_true, ← Bool.not_eq_true'] at hlength
    simp only [Bool.decide_eq_true] at hlength
    omega
  rw [surplus, hzero, List.take_zero]

theorem State.mem_kept_of_few {k : ContextId × Nat} :
    k ∈ s.kept now e ↔ k ∈ s.slotsOf e ∧ s.isStale now k.2 = false := by
  rw [mem_kept, surplus_eq_nil hfew, stale, List.mem_filter, Bool.eq_false_iff]
  simp only [List.not_mem_nil, not_false_eq_true, and_true, not_and, ne_eq]
  exact and_congr_right fun hk => ⟨fun h => h hk, fun h _ => h⟩

theorem State.verdictOn_iff (hslots : s'.slotsOf e = s.kept now e)
    (hleft : ∀ k ∈ s.kept now e, s'.slot? k.2 = s.aged? now k.2) {k : ContextId × Nat}
    (hk : k ∈ s.slotsOf e) :
    (s.verdictOn now k.2 = .release ↔
      s.isLent k.2 = true ∧ k ∈ s'.slotsOf e ∧ s'.isLent k.2 = false) ∧
    (s.verdictOn now k.2 = .close ↔ k ∉ s'.slotsOf e) := by
  rw [verdictOn_eq_release, verdictOn_eq_close, hslots]
  constructor
  · constructor
    · intro hdue
      have hstays : k ∈ s.kept now e :=
        (mem_kept_of_few hfew).mpr ⟨hk, isStale_of_isOverdue hdue⟩
      obtain ⟨hlent, hidle⟩ := (isOverdue_iff_released (hleft k hstays)).mp hdue
      exact ⟨hlent, hstays, hidle⟩
    · rintro ⟨hlent, hstays, hidle⟩
      exact (isOverdue_iff_released (hleft k hstays)).mpr ⟨hlent, hidle⟩
  · simp [mem_kept_of_few hfew, hk]

section swept
variable (h : s.Inspected b now e ks calls s₁) (hperm : ks.Perm (s.slotsOf e))
include h hperm

/-- Checks of all contexts leave the slots that a sweep leaves. -/
theorem State.Inspected.slotsOf_eq_kept : s₁.slotsOf e = s.kept now e := by
  rw [h.slotsOf, kept, surplus_eq_nil hfew, List.append_nil]
  refine List.filter_congr fun k hk => ?_
  rw [decide_eq_decide, hperm.mem_iff, stale, List.mem_filter]

theorem State.Inspected.slot?_of_kept {k : ContextId × Nat} (hk : k ∈ s.kept now e) :
    s₁.slot? k.2 = s.aged? now k.2 := by
  obtain ⟨hmem, hfresh⟩ := (mem_kept_of_few hfew).mp hk
  exact h.aged k (hperm.mem_iff.mpr hmem) hfresh

variable {seen : List Exchange} (hp : s.Prunes now e seen s')
include hp

theorem State.Inspected.handle?_eq (hs : s.Live e) {k : ContextId × Nat} (hk : k ∈ s.slotsOf e) :
    s₁.handle? k.2 = s'.handle? k.2 := by
  by_cases hstale : s.isStale now k.2 = true
  · have hgone : k ∈ s.stale now e := List.mem_filter.mpr ⟨hk, hstale⟩
    rw [h.closed k (hperm.mem_iff.mpr hk) hstale, hp.gone (List.mem_append_left _ hgone)]
  · have hstays : k ∈ s.kept now e :=
      (mem_kept_of_few hfew).mpr ⟨hk, Bool.eq_false_iff.mpr hstale⟩
    rw [handle?, h.slot?_of_kept hfew hperm hstays, handle?, hp.left hs hstays]

theorem State.Inspected.asked_perm :
    (calls.map (·.disconnected?)).Perm (seen.map (·.call.disconnected?)) := by
  rw [h.asked, hp.calls, surplus_eq_nil hfew, List.append_nil]
  exact (hperm.filter _).map _

theorem State.Inspected.ledger_eq (hsuits : ∀ x ∈ seen, x.Suits b) (i : Identity) :
    s₁.ledger = (endSweep s' ⟨i, e, now, s.dueReport now e⟩).ledger := by
  have hfails : calls.countP b.fails = Exchange.failures seen := by
    have hcount := (h.asked_perm hfew hperm hp).countP_eq fun h? : Option Handle =>
      h?.any fun h => (b.complaint? h).isSome
    rw [List.countP_map, List.countP_map] at hcount
    rw [Exchange.failures_eq hsuits, List.countP_map]
    exact hcount
  have hclosed : (s.dueReport now e).closed = (s.slotsOf e).countP fun k => s.isStale now k.2 := by
    show (s.stale now e).length + (s.surplus now e).length = _
    rw [surplus_eq_nil hfew, stale, ← List.countP_eq_length_filter]
    rfl
  rw [h.ledger, ledger_endSweep, hp.ledger, hfails, hperm.countP_eq, hperm.countP_eq, hclosed]
  rfl

end swept

end few

/-- **Checks of all contexts of an identity amount to one sweep**, in whatever order they are made,
as long as the slots that the timeouts leave are within the limit. They leave the same slots, have
the same handles disconnected, and book the same. A check returns that it released a slot if the
sweep takes that slot back, and that it closed a slot if the sweep closes it.

The sweep here ends as each one of a sweep of everything does: an identity of which nothing is left
is forgotten. That concerns neither slots nor counts. -/
theorem checks_amount_to_sweep (he : s.registry.entryId? i = some e) (hs : s.Live e)
    (hfew : ((s.slotsOf e).countP fun k => !s.isStale now k.2) ≤ s.policy.maxConnections)
    {order : List ContextId} (horder : order.Perm (Keyed.keys (s.slotsOf e))) (b : Behaviour)
    (n : Nat) (o : Operation) : ∃ verdicts calls s₁ calls' s₂ report,
      Checks b now i o n s order verdicts calls s₁ ∧
      (sweepOf s now [(i, e)]).Performs b now n calls' s₂ (.swept report) ∧
      s₁.slotsOf e = s₂.slotsOf e ∧ (∀ k ∈ s₁.slotsOf e, s₁.slot? k.2 = s₂.slot? k.2) ∧
      (∀ k ∈ s.slotsOf e, s₁.handle? k.2 = s₂.handle? k.2) ∧
      (calls.map (·.disconnected?)).Perm (calls'.map (·.disconnected?)) ∧
      s₁.ledger = s₂.ledger ∧ Keyed.keys verdicts = order ∧
      ∀ k ∈ s.slotsOf e, ∀ v, (k.1, v) ∈ verdicts →
        (v = .release ↔ s.isLent k.2 = true ∧ k ∈ s₂.slotsOf e ∧ s₂.isLent k.2 = false) ∧
        (v = .close ↔ k ∉ s₂.slotsOf e) := by
  obtain ⟨ks, rfl, hperm⟩ :=
    (congrFun (congrFun (List.eq_map_comp_perm Prod.fst) order) (s.slotsOf e)).mpr horder
  obtain ⟨calls, s₁, hchecks, h₁⟩ := performs_checks he hs hperm.subset
    ((hperm.map _).nodup_iff.mpr hs.ids) now b n o
  obtain ⟨seen, s₂, result, hsweep, ⟨s₀, hprunes, rfl, rfl⟩, hsuits⟩ :=
    (concludes_sweepOf (T := (· = now)) hs i rfl).performs rfl b n
  have hledger := h₁.ledger_eq hfew hperm hprunes hsuits i
  set s₂ := endSweep s₀ ⟨i, e, now, s.dueReport now e⟩ with hs₂
  have hslots₁ : s₁.slotsOf e = s.kept now e := h₁.slotsOf_eq_kept hfew hperm
  have hslots₂ : s₂.slotsOf e = s.kept now e := by
    rw [hs₂, State.slotsOf, entry_endSweep, hprunes.entry]
  have hleft₂ : ∀ k ∈ s.kept now e, s₂.slot? k.2 = s.aged? now k.2 := fun k hk =>
    (slot?_endSweep s₀ _ k.2).trans (hprunes.left hs hk)
  refine ⟨_, calls, s₁, _, s₂, _, hchecks, hsweep, hslots₁.trans hslots₂.symm, fun k hk => ?_,
    fun k hk => ?_, ?_, hledger, ?_, fun k hk v hv => ?_⟩
  · rw [hslots₁] at hk
    rw [h₁.slot?_of_kept hfew hperm hk, hleft₂ k hk]
  · rw [h₁.handle?_eq hfew hperm hprunes hs hk, hs₂, State.handle?, State.handle?, slot?_endSweep]
  · rw [List.map_map]
    exact h₁.asked_perm hfew hperm hprunes
  · rw [Keyed.keys, List.map_map]
    rfl
  · obtain ⟨k', hk', heq⟩ := List.mem_map.mp hv
    obtain ⟨hkey, rfl⟩ := Prod.mk.inj heq
    obtain rfl : k' = k := List.inj_on_of_nodup_map hs.keys (hperm.subset hk') hk hkey
    exact State.verdictOn_iff hfew hslots₂ hleft₂ hk

/-- The same manager with room for both connections of the first identity. -/
def uncrowded : State :=
  { crowded with settings := { crowded.settings with maxConnections := 2 } }

theorem live_uncrowded : uncrowded.Live 0 where
  keys := by decide
  ids := by decide
  opened := by
    have hopen : ∀ k ∈ uncrowded.slotsOf 0, (uncrowded.openHandle? k.1 k.2).isSome := by decide
    exact fun k hk => Option.isSome_iff_exists.mp (hopen k hk)

/-- The second context is checked first. Its slot is closed, and that of the other is released. -/
theorem checks_amount_to_sweep_reversed :
    uncrowded.registry.entryId? ⟨"host", 22, "one", "secret"⟩ = some 0 ∧ uncrowded.Live 0 ∧
    ((uncrowded.slotsOf 0).countP fun k => !uncrowded.isStale 26 k.2) ≤
      uncrowded.policy.maxConnections ∧
    ([⟨2⟩, ⟨1⟩] : List ContextId).Perm (Keyed.keys (uncrowded.slotsOf 0)) ∧
    ∃ calls s₁ calls' s₂ report,
      Checks .smooth 26 ⟨"host", 22, "one", "secret"⟩ .borrow 3 uncrowded [⟨2⟩, ⟨1⟩]
        [(⟨2⟩, .close), (⟨1⟩, .release)] calls s₁ ∧
      (sweepOf uncrowded 26 [(⟨"host", 22, "one", "secret"⟩, 0)]).Performs .smooth 26 3 calls' s₂
        (.swept report) ∧
      s₁.slotsOf 0 = s₂.slotsOf 0 ∧ s₁.ledger = s₂.ledger := by
  have he : uncrowded.registry.entryId? ⟨"host", 22, "one", "secret"⟩ = some 0 := by decide
  have hfew : ((uncrowded.slotsOf 0).countP fun k => !uncrowded.isStale 26 k.2) ≤
      uncrowded.policy.maxConnections := by decide
  have horder : ([⟨2⟩, ⟨1⟩] : List ContextId).Perm (Keyed.keys (uncrowded.slotsOf 0)) := by decide
  obtain ⟨verdicts, calls, s₁, calls', s₂, report, hchecks, hsweep, hslots, -, -, -, hledger, -⟩ :=
    checks_amount_to_sweep he live_uncrowded hfew horder .smooth 3 .borrow
  have hruns : Checks .smooth 26 ⟨"host", 22, "one", "secret"⟩ .borrow 3 uncrowded [⟨2⟩, ⟨1⟩]
      _ _ _ :=
    .cons (.paused (.done _ _ _)) rfl (.cons (.done _ _ _) rfl (.nil _ _))
  obtain ⟨rfl, -, -⟩ := hruns.unique hchecks
  exact ⟨he, live_uncrowded, hfew, horder, calls, s₁, calls', s₂, report, hchecks, hsweep,
    hslots, hledger⟩

end Affine

end ConnectionLeasing

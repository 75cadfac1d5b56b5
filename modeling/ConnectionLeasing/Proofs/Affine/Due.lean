import ConnectionLeasing.Proofs.Affine.Lease
import Mathlib.Data.List.Nodup

/-!
# What is due in an entry

The slots that a sweep is going to close can be told when it begins: those idle for too long
(`State.stale`), and of the others that are idle then or taken back by the sweep, the least recently
released ones, as many as there are too many (`State.surplus`). It keeps the rest (`State.kept`).

* `isOverdue_aged`, `isStale_aged`, `aged?_aged`: what is due of a slot once it was taken back.
* `Spares.kept`, `Spares.dueReport`: all this depends on the slots of the entry only.
* `Live.nodup_gone`, `Live.length_kept`: no slot is closed twice.
-/

namespace ConnectionLeasing

namespace SweepReport

theorem empty_merge (r : SweepReport) : ({} : SweepReport).merge r = r := by
  simp [merge]

theorem merge_assoc (a b c : SweepReport) : (a.merge b).merge c = a.merge (b.merge c) := by
  simp [merge, Nat.add_assoc]

theorem merge_left_comm (a b c : SweepReport) : a.merge (b.merge c) = b.merge (a.merge c) := by
  simp [merge, Nat.add_left_comm]

end SweepReport

namespace Affine

theorem length_add_length_filter {α : Type} [BEq α] [LawfulBEq α] {l gone : List α}
    (hn : gone.Nodup) (hl : l.Nodup) (hgone : gone ⊆ l) :
    gone.length + (l.filter fun a => a ∉ gone).length = l.length := by
  rw [← List.length_append]
  refine ((List.perm_ext_iff_of_nodup ?_ hl).mpr fun a => ?_).length_eq
  · rw [List.nodup_append]
    refine ⟨hn, hl.filter _, fun a ha b hb heq => ?_⟩
    subst heq
    exact (of_decide_eq_true (List.mem_filter.mp hb).2) ha
  · rw [List.mem_append, List.mem_filter, decide_eq_true_eq]
    refine ⟨fun h => h.elim (fun ha => hgone ha) And.left, fun ha => ?_⟩
    by_cases hg : a ∈ gone
    · exact .inl hg
    · exact .inr ⟨ha, hg⟩

namespace State

/-! ### What is due in an entry -/

/-- Whether a slot has been idle for too long. -/
def isStale (s : State) (now id : Nat) : Bool :=
  (s.slot? id).any fun x => !x.borrowed && s.policy.idleExpired x.releaseTime now

/-- A slot, taken back if it has been lent for too long. -/
def aged? (s : State) (now id : Nat) : Option Slot :=
  (s.slot? id).map fun x => if s.isOverdue now id then x.markIdle now else x

/-- The slots of an entry that are idle for too long. -/
def stale (s : State) (now e : Nat) : List (ContextId × Nat) :=
  (s.slotsOf e).filter fun k => s.isStale now k.2

/-- A slot that a sweep may close for the limit, with the moment it was released. If the sweep takes
it back, it is released just now. -/
def spare? (s : State) (now : Nat) (k : ContextId × Nat) : Option (Nat × ContextId × Nat) :=
  if s.isStale now k.2 then none
  else (s.aged? now k.2).bind fun x => if x.borrowed then none else some (x.releaseTime, k)

/-- The slots of an entry that a sweep may close for the limit, least recently released first. -/
def spare (s : State) (now e : Nat) : List (ContextId × Nat) :=
  (((s.slotsOf e).filterMap (s.spare? now)).mergeSort fun a b => decide (a.1 ≤ b.1)).map (·.2)

/-- The slots of an entry that a sweep closes for the limit. -/
def surplus (s : State) (now e : Nat) : List (ContextId × Nat) :=
  (s.spare now e).take ((s.slotsOf e).length - (s.stale now e).length - s.policy.maxConnections)

/-- The slots of an entry that a sweep leaves. -/
def kept (s : State) (now e : Nat) : List (ContextId × Nat) :=
  (s.slotsOf e).filter fun k => k ∉ s.stale now e ++ s.surplus now e

/-- A slot that is idle once the overdue ones were taken back and the stale ones closed. -/
def isSpare (s : State) (now e : Nat) (k : ContextId × Nat) : Bool :=
  k ∉ s.stale now e && (s.aged? now k.2).any fun x => !x.borrowed

/-- What the sweep of an entry reports. -/
def dueReport (s : State) (now e : Nat) : SweepReport where
  released := (s.slotsOf e).countP fun k => s.isOverdue now k.2
  closedIdle := (s.stale now e).length
  closedSurplus := (s.surplus now e).length

/-- The slots of an entry are open under their keys, and no key and no slot occurs twice. -/
structure Live (s : State) (e : Nat) : Prop where
  keys : (Keyed.keys (s.slotsOf e)).Nodup
  ids : ((s.slotsOf e).map (·.2)).Nodup
  opened : ∀ k ∈ s.slotsOf e, ∃ h, s.openHandle? k.1 k.2 = some h

section live
variable {s : State} {now e : Nat}

theorem Live.nodup (hs : s.Live e) : (s.slotsOf e).Nodup := .of_map _ hs.ids

theorem Live.inj (hs : s.Live e) {k k' : ContextId × Nat} (hk : k ∈ s.slotsOf e)
    (hk' : k' ∈ s.slotsOf e) (h : k.2 = k'.2) : k = k' :=
  List.inj_on_of_nodup_map hs.ids hk hk' h

theorem Live.slot? (hs : s.Live e) {k : ContextId × Nat} (hk : k ∈ s.slotsOf e) :
    ∃ x h, s.slot? k.2 = some x ∧ x.openFor k.1 = some h := by
  obtain ⟨h, hh⟩ := hs.opened k hk
  obtain ⟨x, hx, hopen⟩ := Option.bind_eq_some_iff.mp hh
  exact ⟨x, h, hx, hopen⟩

/-! ### Taking slots back -/

theorem idleExpired_now (p : RetentionPolicy) (now : Nat) : p.idleExpired now now = false := by
  simp [RetentionPolicy.idleExpired, Duration.elapsed]

theorem bind_aged? {α : Type} {f : Slot → Option α} (hf : ∀ x, f (x.markIdle now) = f x)
    (id : Nat) : (s.aged? now id).bind f = (s.slot? id).bind f := by
  rw [aged?]
  cases s.slot? id with
  | none => rfl
  | some x =>
    rw [Option.map_some, Option.bind_some, Option.bind_some]
    split
    · exact hf x
    · rfl

section taken
variable {s' : State} {id : Nat}

theorem isOverdue_aged (h : s'.slot? id = s.aged? now id) (hsettings : s'.settings = s.settings) :
    s'.isOverdue now id = false := by
  rw [isOverdue, h, aged?, policy, hsettings]
  cases hx : s.slot? id with
  | none => rfl
  | some x =>
    rw [Option.map_some, Option.any_some]
    split
    · rfl
    · rename_i hdue
      rw [Bool.not_eq_true, isOverdue, hx, Option.any_some] at hdue
      exact hdue

theorem isStale_aged (h : s'.slot? id = s.aged? now id) (hsettings : s'.settings = s.settings) :
    s'.isStale now id = s.isStale now id := by
  rw [isStale, isStale, h, aged?, policy, hsettings]
  cases hx : s.slot? id with
  | none => rfl
  | some x =>
    rw [Option.map_some, Option.any_some, Option.any_some]
    split
    · rename_i hdue
      rw [isOverdue, hx, Option.any_some, Bool.and_eq_true] at hdue
      simp [Slot.markIdle, idleExpired_now, hdue.1]
    · rfl

theorem aged?_aged (h : s'.slot? id = s.aged? now id) (hsettings : s'.settings = s.settings) :
    s'.aged? now id = s.aged? now id := by
  rw [← h, aged?, isOverdue_aged h hsettings]
  cases s'.slot? id <;> rfl

end taken

/-! ### What is closed and what is kept -/

theorem spare?_eq_some {k : ContextId × Nat} {a : Nat × ContextId × Nat} :
    s.spare? now k = some a ↔ s.isStale now k.2 = false ∧
      ∃ x, s.aged? now k.2 = some x ∧ x.borrowed = false ∧ (x.releaseTime, k) = a := by
  rw [spare?]
  split
  · simp_all
  · rename_i hfresh
    rw [Option.bind_eq_some_iff]
    refine ⟨fun ⟨x, hx, ha⟩ => ⟨by simpa using hfresh, x, hx, ?_⟩, fun ⟨_, x, hx, hb, ha⟩ =>
      ⟨x, hx, by rw [hb, ← ha]; rfl⟩⟩
    split at ha
    · cases ha
    · rename_i hb
      exact ⟨by simpa using hb, Option.some.inj ha⟩

theorem mem_spare {k : ContextId × Nat} : k ∈ s.spare now e ↔ k ∈ s.slotsOf e ∧
    s.isStale now k.2 = false ∧ ∃ x, s.aged? now k.2 = some x ∧ x.borrowed = false := by
  rw [spare, List.mem_map]
  constructor
  · rintro ⟨a, ha, rfl⟩
    rw [List.mem_mergeSort, List.mem_filterMap] at ha
    obtain ⟨k, hk, ha⟩ := ha
    obtain ⟨hfresh, x, hx, hb, rfl⟩ := spare?_eq_some.mp ha
    exact ⟨hk, hfresh, x, hx, hb⟩
  · rintro ⟨hk, hfresh, x, hx, hb⟩
    refine ⟨(x.releaseTime, k), ?_, rfl⟩
    rw [List.mem_mergeSort, List.mem_filterMap]
    exact ⟨k, hk, spare?_eq_some.mpr ⟨hfresh, x, hx, hb, rfl⟩⟩

theorem Live.nodup_spare (hs : s.Live e) (now : Nat) : (s.spare now e).Nodup := by
  rw [spare, ((List.mergeSort_perm _ _).map _).nodup_iff, List.map_filterMap]
  refine hs.nodup.filterMap fun k k' a hk hk' => ?_
  obtain ⟨b, hb, rfl⟩ := Option.map_eq_some_iff.mp hk
  obtain ⟨b', hb', heq⟩ := Option.map_eq_some_iff.mp hk'
  obtain ⟨-, x, -, -, rfl⟩ := spare?_eq_some.mp hb
  obtain ⟨-, x', -, -, rfl⟩ := spare?_eq_some.mp hb'
  exact heq.symm

theorem mem_kept {p : ContextId × Nat} : p ∈ s.kept now e ↔
    p ∈ s.slotsOf e ∧ p ∉ s.stale now e ∧ p ∉ s.surplus now e := by
  simp [State.kept]

theorem mem_slotsOf_of_mem_kept {p : ContextId × Nat} (hp : p ∈ s.kept now e) :
    p ∈ s.slotsOf e := (mem_kept.mp hp).1

theorem gone_subset (s : State) (now e : Nat) :
    s.stale now e ++ s.surplus now e ⊆ s.slotsOf e := by
  refine List.append_subset.mpr ⟨List.filter_sublist.subset, fun p hp => ?_⟩
  exact (mem_spare.mp (List.mem_of_mem_take hp)).1

theorem Live.nodup_gone (hs : s.Live e) (now : Nat) :
    (s.stale now e ++ s.surplus now e).Nodup := by
  rw [List.nodup_append]
  refine ⟨hs.nodup.filter _, (hs.nodup_spare now).sublist (List.take_sublist ..),
    fun p hp p' hp' heq => ?_⟩
  subst heq
  have hfresh := (mem_spare.mp (List.mem_of_mem_take hp')).2.1
  simpa [hfresh] using (List.mem_filter.mp hp).2

theorem Live.length_kept (hs : s.Live e) (now : Nat) :
    (s.stale now e).length + (s.surplus now e).length + (s.kept now e).length =
      (s.slotsOf e).length := by
  rw [← List.length_append]
  exact length_add_length_filter (hs.nodup_gone now) hs.nodup (s.gone_subset now e)

/-! ### Entries that a change spares -/

/-- What matters for the sweep of an entry is the same in two states. -/
structure Spares (s : State) (e : Nat) (s' : State) : Prop where
  settings : s'.settings = s.settings
  slotsOf : s'.slotsOf e = s.slotsOf e
  slot? : ∀ k ∈ s.slotsOf e, s'.slot? k.2 = s.slot? k.2

section spares
variable {s' : State}

theorem isStale_congr {id : Nat} (h : s'.slot? id = s.slot? id)
    (hsettings : s'.settings = s.settings) : s'.isStale now id = s.isStale now id := by
  rw [isStale, isStale, h, policy, policy, hsettings]

theorem aged?_congr {id : Nat} (h : s'.slot? id = s.slot? id)
    (hsettings : s'.settings = s.settings) : s'.aged? now id = s.aged? now id := by
  rw [aged?, aged?, h, isOverdue_congr h hsettings]

theorem Spares.stale (h : s.Spares e s') : s'.stale now e = s.stale now e := by
  rw [State.stale, State.stale, h.slotsOf]
  exact List.filter_congr fun k hk => isStale_congr (h.slot? k hk) h.settings

theorem Spares.spare (h : s.Spares e s') : s'.spare now e = s.spare now e := by
  rw [State.spare, State.spare, h.slotsOf]
  refine congrArg (fun l : List (Nat × ContextId × Nat) =>
    (l.mergeSort fun a b => decide (a.1 ≤ b.1)).map (·.2)) (List.filterMap_congr fun k hk => ?_)
  rw [spare?, spare?, isStale_congr (h.slot? k hk) h.settings,
    aged?_congr (h.slot? k hk) h.settings]

theorem Spares.surplus (h : s.Spares e s') : s'.surplus now e = s.surplus now e := by
  rw [State.surplus, State.surplus, h.spare, h.stale, h.slotsOf, policy, policy, h.settings]

theorem Spares.kept (h : s.Spares e s') : s'.kept now e = s.kept now e := by
  rw [State.kept, State.kept, h.slotsOf, h.stale, h.surplus]

theorem Spares.dueReport (h : s.Spares e s') : s'.dueReport now e = s.dueReport now e := by
  rw [State.dueReport, State.dueReport, h.slotsOf, h.stale, h.surplus]
  congr 1
  refine List.countP_congr fun k hk => ?_
  rw [isOverdue_congr (h.slot? k hk) h.settings]

end spares

end live

end State

end Affine

end ConnectionLeasing

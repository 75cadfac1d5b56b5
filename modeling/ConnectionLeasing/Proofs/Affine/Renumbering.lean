import ConnectionLeasing.Proofs.Affine.Serving
import Mathlib.Logic.Equiv.Basic

/-!
# Handles under other numbers

Nothing that is done for an identity depends on the numbers of its handles, as long as a handle goes
on behaving as it did under its old number (`Behaviour.renumber`). Only an operation that opens a
connection depends on the number of the next handle.

* `Occasion.Renumbers.attends`: an operation under other numbers.
* `Occasion.numbered_attends`: which numbers are in use after an operation.
-/

namespace ConnectionLeasing

variable {ρ : Equiv.Perm Nat}

/-- The handle under another number. -/
def Handle.renumber (ρ : Equiv.Perm Nat) (h : Handle) : Handle := ⟨ρ h.number, h.channel⟩

@[simp] theorem Handle.renumber_symm (ρ : Equiv.Perm Nat) (h : Handle) :
    (h.renumber ρ).renumber ρ.symm = h := by
  rw [renumber, renumber, ρ.symm_apply_apply]

/-- Every handle behaves as it did under its old number. -/
def Behaviour.renumber (ρ : Equiv.Perm Nat) (b : Behaviour) : Behaviour where
  usable h := b.usable (h.renumber ρ.symm)
  refusal? h i timeout := b.refusal? (h.renumber ρ.symm) i timeout
  complaint? h := b.complaint? (h.renumber ρ.symm)

namespace OpenSlot

def renumber (ρ : Equiv.Perm Nat) (x : OpenSlot) : OpenSlot :=
  { x with handle := x.handle.renumber ρ }

variable (x : OpenSlot)

@[simp] theorem handle_renumber : (x.renumber ρ).handle = x.handle.renumber ρ := rfl

@[simp] theorem borrowed_renumber : (x.renumber ρ).borrowed = x.borrowed := rfl

@[simp] theorem borrowTime_renumber : (x.renumber ρ).borrowTime = x.borrowTime := rfl

@[simp] theorem releaseTime_renumber : (x.renumber ρ).releaseTime = x.releaseTime := rfl

theorem markIdle_renumber (now : Nat) :
    (x.renumber ρ).markIdle now = (x.markIdle now).renumber ρ := rfl

theorem markBorrowed_renumber (now : Nat) :
    (x.renumber ρ).markBorrowed now = (x.markBorrowed now).renumber ρ := rfl

end OpenSlot

namespace Holding

def renumber (ρ : Equiv.Perm Nat) (h : Holding) : Holding :=
  { h with slots := h.slots.map (Prod.map id (·.renumber ρ)) }

variable (h : Holding) (c : ContextId)

@[simp] theorem length_slots_renumber : (h.renumber ρ).slots.length = h.slots.length :=
  List.length_map _

@[simp] theorem pending_renumber : (h.renumber ρ).pending = h.pending := rfl

theorem slot?_renumber : (h.renumber ρ).slot? c = (h.slot? c).map (·.renumber ρ) :=
  Keyed.get?_map Function.injective_id _ h.slots c

theorem write_renumber (x : OpenSlot) :
    (h.renumber ρ).write c (x.renumber ρ) = (h.write c x).renumber ρ :=
  congrArg (fun slots => { h with slots }) (Keyed.put_map Function.injective_id _ h.slots c x)

theorem remove_renumber : (h.renumber ρ).remove c = (h.remove c).renumber ρ :=
  congrArg (fun slots => { h with slots }) (Keyed.erase_map Function.injective_id _ h.slots c)

theorem welcome_renumber : (h.renumber ρ).welcome = h.welcome.renumber ρ := rfl

theorem Below.renumber {h : Holding} {n : Nat} (hh : h.Below n) (hρ : ∀ x < n, ρ x = x) :
    h.renumber ρ = h := by
  have hslots : h.slots.map (Prod.map id (·.renumber ρ)) = h.slots := by
    refine (List.map_congr_left fun p hp => ?_).trans (List.map_id _)
    rw [Prod.map, OpenSlot.renumber, Handle.renumber, hρ _ (hh p hp)]
    rfl
  rw [Holding.renumber, hslots]

end Holding

namespace Affine

def Result.renumber (ρ : Equiv.Perm Nat) : Result → Result
  | .lent h => .lent (h.renumber ρ)
  | result => result

def Deed.renumber (ρ : Equiv.Perm Nat) (d : Deed) : Deed where
  holding := d.holding.renumber ρ
  ledger := d.ledger
  disconnected := d.disconnected.map (·.renumber ρ)
  attempts := d.attempts

def Service.renumber (ρ : Equiv.Perm Nat) (x : Service) : Service :=
  ⟨x.deed.renumber ρ, x.result.renumber ρ⟩

theorem Deed.andThen_renumber (d d' : Deed) :
    (d.renumber ρ).andThen (d'.renumber ρ) = (d.andThen d').renumber ρ := by
  simp only [andThen, renumber, List.map_append]

theorem Deed.leadsTo_renumber (d : Deed) (x : Service) :
    (d.renumber ρ).leadsTo (x.renumber ρ) = (d.leadsTo x).renumber ρ := by
  rw [leadsTo, leadsTo, Service.renumber, Service.renumber, ← Deed.andThen_renumber]

theorem Deed.leadsTo_attempts_ne_nil {x : Service} (hx : x.deed.attempts ≠ []) (d : Deed) :
    (d.leadsTo x).deed.attempts ≠ [] := fun hnone => hx (List.append_eq_nil_iff.mp hnone).2

/-- Opens at most one connection, and holds numbers below `n` but for that of the handle it builds.
-/
structure Service.Numbered (n : Nat) (x : Service) : Prop where
  once : x.deed.attempts.length ≤ 1
  below : x.deed.holding.Below (n + x.deed.attempts.length)

theorem Service.Numbered.after {n : Nat} {x : Service} (hx : x.Numbered n) {d : Deed}
    (hd : d.attempts = []) : (d.leadsTo x).Numbered n := by
  have hattempts : (d.leadsTo x).deed.attempts = x.deed.attempts := by
    show d.attempts ++ x.deed.attempts = x.deed.attempts
    rw [hd, List.nil_append]
  exact ⟨hattempts ▸ hx.once, hattempts ▸ hx.below⟩

theorem Service.Numbered.quiet {n : Nat} {x : Service} (hd : x.deed.attempts = [])
    (hx : x.deed.holding.Below n) : x.Numbered n := by
  refine ⟨?_, ?_⟩
  · rw [hd]
    exact Nat.zero_le 1
  · rw [hd]
    exact hx

namespace Occasion

/-- One occasion is the other under other numbers. -/
structure Renumbers (ρ : Equiv.Perm Nat) (o o' : Occasion) : Prop where
  behaviour : o'.behaviour = o.behaviour.renumber ρ
  settings : o'.settings = o.settings
  factory : o'.factory = o.factory
  now : o'.now = o.now

namespace Renumbers

variable {o o' : Occasion} (ho : o.Renumbers ρ o') (h : Holding) (c : ContextId) (r : Request)
include ho

theorem usable (x : Handle) : o'.behaviour.usable (x.renumber ρ) = o.behaviour.usable x := by
  rw [ho.behaviour]
  exact congrArg o.behaviour.usable (x.renumber_symm ρ)

theorem complaint? (x : Handle) :
    o'.behaviour.complaint? (x.renumber ρ) = o.behaviour.complaint? x := by
  rw [ho.behaviour]
  exact congrArg o.behaviour.complaint? (x.renumber_symm ρ)

theorem refusal? (x : Handle) (i : Identity) (timeout : Duration) :
    o'.behaviour.refusal? (x.renumber ρ) i timeout = o.behaviour.refusal? x i timeout := by
  rw [ho.behaviour]
  exact congrArg (o.behaviour.refusal? · i timeout) (x.renumber_symm ρ)

theorem suits (channel : Channel) (x : OpenSlot) :
    o'.suits channel (x.renumber ρ) = o.suits channel x := by
  rw [Occasion.suits, Occasion.suits, OpenSlot.handle_renumber, ho.usable]
  rfl

/-! ### What is done without opening a connection -/

theorem closes (x : OpenSlot) :
    o'.closes (h.renumber ρ) c (x.renumber ρ) = (o.closes h c x).renumber ρ := by
  rw [Occasion.closes, Occasion.closes, Holding.remove_renumber, OpenSlot.handle_renumber,
    ho.complaint?]
  rfl

theorem inspects : o'.inspects (h.renumber ρ) c = (o.inspects h c).renumber ρ := by
  rw [Occasion.inspects, Occasion.inspects, Holding.slot?_renumber, ho.settings, ho.now]
  cases h.slot? c with
  | none => rfl
  | some x =>
    rw [Option.map_some]
    simp only [OpenSlot.borrowed_renumber, OpenSlot.borrowTime_renumber,
      OpenSlot.releaseTime_renumber]
    cases o.settings.retention.verdict x.borrowed x.borrowTime x.releaseTime o.now with
    | keep => rfl
    | release =>
      dsimp only
      rw [OpenSlot.markIdle_renumber, Holding.write_renumber]
      rfl
    | close =>
      dsimp only
      rw [ho.closes, Holding.remove_renumber, ← Deed.andThen_renumber]
      rfl

theorem releases : o'.releases (h.renumber ρ) c = (o.releases h c).renumber ρ := by
  rw [Occasion.releases, Occasion.releases, Holding.slot?_renumber, ho.now]
  cases h.slot? c with
  | none => rfl
  | some x =>
    rw [Option.map_some]
    dsimp only
    rw [OpenSlot.markIdle_renumber, Holding.write_renumber]
    rfl

theorem closesOwn : o'.closesOwn (h.renumber ρ) c = (o.closesOwn h c).renumber ρ := by
  rw [Occasion.closesOwn, Occasion.closesOwn, Holding.slot?_renumber]
  cases h.slot? c with
  | none => rfl
  | some x =>
    rw [Option.map_some]
    dsimp only
    rw [ho.closes, Holding.remove_renumber, ← Deed.leadsTo_renumber]
    rfl

/-! ### What may open a connection -/

theorem opens (hnext : (o.opens h r).deed.attempts ≠ [] → o'.next = ρ o.next) :
    o'.opens (h.renumber ρ) r = (o.opens h r).renumber ρ := by
  rw [Occasion.opens, ho.settings, ho.factory, ho.now, Holding.length_slots_renumber,
    Holding.pending_renumber, Holding.welcome_renumber]
  rw [Occasion.opens] at hnext ⊢
  split
  · rename_i hroom
    rw [if_pos hroom] at hnext
    cases hproduces : o.factory.produces? r.channel with
    | none => rfl
    | some produces =>
      rw [hproduces] at hnext
      have hbuilt : o'.next = ρ o.next := hnext (by
        dsimp only
        split <;> simp)
      have hhandle : (⟨o'.next, produces⟩ : Handle) = (⟨o.next, produces⟩ : Handle).renumber ρ := by
        rw [hbuilt]
        rfl
      dsimp only
      rw [hhandle, ho.refusal?]
      cases o.behaviour.refusal? ⟨o.next, produces⟩ r.identity o.settings.connectTimeout with
      | some e => rfl
      | none =>
        have hlent : OpenSlot.lent ((⟨o.next, produces⟩ : Handle).renumber ρ) o.now =
          (OpenSlot.lent ⟨o.next, produces⟩ o.now).renumber ρ := rfl
        dsimp only
        rw [hlent, Holding.write_renumber]
        rfl
  · rfl

theorem looksFurther (hnext : (o.looksFurther h r).deed.attempts ≠ [] → o'.next = ρ o.next) :
    o'.looksFurther (h.renumber ρ) r = (o.looksFurther h r).renumber ρ := by
  rw [Occasion.looksFurther] at hnext
  have hfind : (h.renumber ρ).slots.find? (fun p => p.1 ≠ r.context && o'.suits r.channel p.2) =
      (h.slots.find? fun p => p.1 ≠ r.context && o.suits r.channel p.2).map
        (Prod.map id (·.renumber ρ)) := by
    rw [Holding.renumber, List.find?_map]
    refine congrArg (Option.map _) (congrArg (List.find? · h.slots) (funext fun p => ?_))
    rw [Function.comp_apply, Prod.map, ho.suits]
    rfl
  rw [Occasion.looksFurther, Occasion.looksFurther, hfind]
  cases hfound : h.slots.find? fun p => p.1 ≠ r.context && o.suits r.channel p.2 with
  | none =>
    rw [hfound] at hnext
    exact ho.opens h r hnext
  | some p =>
    rw [Option.map_some, Prod.map, Occasion.takesOver, Occasion.takesOver, ho.now,
      OpenSlot.markBorrowed_renumber, Holding.remove_renumber, Holding.write_renumber]
    rfl

theorem lends (hnext : (o.lends h r).deed.attempts ≠ [] → o'.next = ρ o.next) :
    o'.lends (h.renumber ρ) r = (o.lends h r).renumber ρ := by
  rw [Occasion.lends] at hnext
  rw [Occasion.lends, Occasion.lends, Holding.slot?_renumber]
  cases hslot : h.slot? r.context with
  | none =>
    rw [hslot] at hnext
    exact ho.looksFurther h r hnext
  | some x =>
    rw [hslot] at hnext
    rw [Option.map_some]
    dsimp only at hnext ⊢
    rw [OpenSlot.handle_renumber, ho.usable, OpenSlot.borrowed_renumber, ho.suits, ho.now,
      OpenSlot.markBorrowed_renumber, Holding.write_renumber, ho.closes, Holding.remove_renumber]
    split
    · rfl
    · rename_i hlent
      rw [if_neg hlent] at hnext
      split
      · rfl
      · rename_i hsuits
        rw [if_neg hsuits] at hnext
        rw [ho.looksFurther _ r fun h => hnext (Deed.leadsTo_attempts_ne_nil h _),
          Deed.leadsTo_renumber]

theorem performs (t : Telling) (hnext : (o.performs h t).deed.attempts ≠ [] → o'.next = ρ o.next) :
    o'.performs (h.renumber ρ) t = (o.performs h t).renumber ρ := by
  rw [Occasion.performs] at hnext
  rw [Occasion.performs, Occasion.performs]
  cases hpurpose : t.purpose with
  | borrow channel =>
    rw [hpurpose] at hnext
    exact ho.lends h _ hnext
  | release => exact ho.releases h _
  | close => exact ho.closesOwn h _
  | tell => rfl

theorem serves (t : Telling) (hnext : (o.serves h t).deed.attempts ≠ [] → o'.next = ρ o.next) :
    o'.serves (h.renumber ρ) t = (o.serves h t).renumber ρ := by
  rw [Occasion.serves] at hnext
  rw [Occasion.serves, Occasion.serves, ho.inspects]
  rw [← Deed.leadsTo_renumber]
  exact congrArg _ (ho.performs _ t fun h => hnext (Deed.leadsTo_attempts_ne_nil h _))

/-- **An operation under other numbers.** -/
theorem attends (observers : List Observer) (t : Telling)
    (hnext : (o.attends observers h t).deed.attempts ≠ [] → o'.next = ρ o.next) :
    o'.attends observers (h.renumber ρ) t = (o.attends observers h t).renumber ρ := by
  rw [Occasion.attends] at hnext
  rw [Occasion.attends, Occasion.attends]
  split
  · rename_i hmem
    rw [if_pos hmem] at hnext
    exact ho.serves h t hnext
  · rename_i hmem
    rw [if_neg hmem] at hnext
    exact ho.performs h t hnext

end Renumbers

/-! ### Numbers in use -/

variable {o : Occasion} {h : Holding}

theorem below_inspects (hh : h.Below o.next) (c : ContextId) :
    (o.inspects h c).holding.Below o.next := by
  rw [inspects]
  cases hx : h.slot? c with
  | none => exact hh
  | some x =>
    have hnumber : x.handle.number < o.next := hh.slot? hx
    dsimp only
    cases o.settings.retention.verdict x.borrowed x.borrowTime x.releaseTime o.now with
    | keep => exact hh
    | release => exact hh.write c hnumber
    | close => exact hh.remove c

theorem numbered_opens (hh : h.Below o.next) (r : Request) : (o.opens h r).Numbered o.next := by
  rw [opens]
  split
  · cases o.factory.produces? r.channel with
    | none => exact .quiet rfl hh
    | some produces =>
      have hmore : h.welcome.Below (o.next + 1) := fun p hp => Nat.lt_succ_of_lt (hh p hp)
      dsimp only
      split
      · exact ⟨Nat.le_refl 1, hmore⟩
      · exact ⟨Nat.le_refl 1, hmore.write r.context (Nat.lt_succ_self _)⟩
  · exact .quiet rfl hh

theorem numbered_looksFurther (hh : h.Below o.next) (r : Request) :
    (o.looksFurther h r).Numbered o.next := by
  rw [looksFurther]
  cases hfound : h.slots.find? fun p => p.1 ≠ r.context && o.suits r.channel p.2 with
  | none => exact numbered_opens hh r
  | some p =>
    have hnumber : p.2.handle.number < o.next := hh p (List.mem_of_find?_eq_some hfound)
    exact .quiet rfl ((hh.remove p.1).write r.context hnumber)

theorem numbered_lends (hh : h.Below o.next) (r : Request) : (o.lends h r).Numbered o.next := by
  rw [lends]
  cases hslot : h.slot? r.context with
  | none => exact numbered_looksFurther hh r
  | some x =>
    have hnumber : x.handle.number < o.next := hh.slot? hslot
    dsimp only
    split
    · exact .quiet rfl hh
    · split
      · exact .quiet rfl (hh.write r.context hnumber)
      · exact (numbered_looksFurther (hh.remove r.context) r).after rfl

theorem numbered_performs (hh : h.Below o.next) (t : Telling) :
    (o.performs h t).Numbered o.next := by
  rw [performs]
  cases t.purpose with
  | borrow channel => exact numbered_lends hh _
  | release =>
    dsimp only
    rw [releases]
    cases hslot : h.slot? t.announcement.context with
    | none => exact .quiet rfl hh
    | some x =>
      have hnumber : x.handle.number < o.next := hh.slot? hslot
      exact .quiet rfl (hh.write _ hnumber)
  | close =>
    dsimp only
    rw [closesOwn]
    cases h.slot? t.announcement.context with
    | none => exact .quiet rfl hh
    | some x => exact .quiet rfl (hh.remove _)
  | tell => exact .quiet rfl hh

/-- **Numbers in use after an operation.** -/
theorem numbered_attends (hh : h.Below o.next) (observers : List Observer) (t : Telling) :
    (o.attends observers h t).Numbered o.next := by
  rw [attends]
  split
  · exact (numbered_performs (below_inspects hh _) t).after (o.attempts_inspects _ _)
  · exact numbered_performs hh t

end Occasion

end Affine

end ConnectionLeasing
